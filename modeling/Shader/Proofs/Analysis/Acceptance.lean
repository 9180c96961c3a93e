import Shader.Proofs.Analysis.Reading
import Shader.Proofs.Draft.Written

namespace Shader

open List

namespace Instruction

variable {i : Instruction}

theorem Framed.exists_resultId? {op : Op} (h : i.Framed) (ho : i.op? = some op)
    (hr : op.outcome.hasResult) :
    ∃ id, i.resultId? = some id := by
  have hs := h.wellFormed.left.result
  rw [Statement.outcome, show (Statement.ofInstruction i).op? = some op from ho, Option.elim_some,
    hr] at hs
  exact Option.isSome_iff_exists.mp hs

end Instruction

namespace StructTable

variable {o : Outline} (hb : o.toBinary.Framed)

include hb

theorem memberSize_succeeds (t : StructTable) (m : StructMember) : Succeeds (t.memberSize o m) := by
  unfold memberSize
  split
  case h_2 => exact .pure _
  case h_1 type hd =>
    have hmem := Binary.mem_of_definition? hd
    split
    case h_1 => exact .pure _
    case h_2 ho =>
      refine (Binary.arrayLength_succeeds hb hmem ho).bind fun _ _ => ?_
      split
      case h_1 | h_2 => exact .pure _
      case h_3 =>
        refine ((hb type hmem).word_succeeds ho (by decide)).bind fun element _ => ?_
        exact (Binary.shape_succeeds hb element).bind fun _ _ => .pure _
    case h_3 => exact .pure _
    case h_4 => exact (Binary.shape_succeeds hb _).bind fun _ _ => .pure _

theorem rangeOf_succeeds (t : StructTable) (members : List StructMember) :
    Succeeds (t.rangeOf o members) := by
  unfold rangeOf
  split
  case h_1 => exact (memberSize_succeeds hb t _).bind fun _ _ => .pure _
  case h_2 =>
    exact (Succeeds.mapM_iff.mpr fun m _ => memberSize_succeeds hb t m).bind fun _ _ => .pure _

theorem ofOutline_succeeds : Succeeds (ofOutline o) := by
  refine .foldlM (fun t i _ => ?_) ∅
  unfold addStruct
  split
  case h_2 => exact .pure _
  case h_1 id _ =>
    refine (Succeeds.filterMapM_iff.mpr fun ⟨type, index⟩ _ => ?_).bind fun members _ =>
      (rangeOf_succeeds hb t members).bind fun _ _ => .pure _
    show Succeeds (t.member? o (o.decorationsOf id) index type)
    unfold member?
    split
    case h_2 => exact .pure _
    case h_1 i hd =>
      exact (Binary.stripArrays?_succeeds hb (Binary.mem_of_definition? hd)).bind fun _ _ => .pure _

end StructTable

theorem checkedSearch_succeeds {α : Type} {key : α → Id} {next : α → Checked (List α)}
    (h : ∀ a, Succeeds (next a)) (keys : Nat) (start : α) :
    Succeeds (checkedSearch key next keys start) :=
  (Succeeds.forM fun a _ => (h a).bind fun _ _ => .pure _).bind fun _ _ => .pure _

namespace Op

variable {op : Op}

theorem lt_leastLength_of_isAccessChain (h : op.isAccessChain) : 3 < op.leastLength := by
  unfold isAccessChain at h
  split at h
  case h_5 => cases h
  all_goals decide

theorem lt_leastLength_of_isAtomic (h : op.isAtomic) : 3 < op.leastLength := by
  unfold isAtomic at h
  split at h
  case h_22 => cases h
  all_goals decide

end Op

namespace Instruction

variable {i : Instruction}

theorem accessed_succeeds_iff (h : i.Framed) :
    Succeeds i.accessed ↔ ∀ op ∈ i.op?, op.accessLength ≤ i.length := by
  unfold accessed
  split
  case h_1 ho => simpa [ho] using Succeeds.pure _
  case h_2 op ho =>
    simp only [ho, Option.mem_def, Option.some.injEq, forall_eq']
    split
    -- The five opcodes of `Op.accessLength`, then the ones that have a least length.
    case h_2 | h_3 | h_5 | h_6 => exact (Succeeds.bind_iff fun _ => .pure _).trans word_iff
    case h_8 =>
      constructor
      case mp =>
        intro h
        have ⟨_, _, h⟩ := h.of_bind
        have ⟨w, hw, _⟩ := h.of_bind
        exact word_iff.mp ⟨w, hw⟩
      case mpr =>
        intro hl
        refine (word_iff.mpr (Nat.lt_of_succ_lt hl)).bind fun _ _ => ?_
        exact (word_iff.mpr hl).bind fun _ _ => .pure _
    case h_7 =>
      refine iff_of_true ?_ (Nat.zero_le _)
      exact (h.word_succeeds ho (by decide)).bind fun _ _ => (h.word_succeeds ho (by decide)).bind
        fun _ _ => .pure _
    case h_1 | h_4 | h_9 | h_10 | h_11 =>
      exact iff_of_true ((h.word_succeeds ho (by decide)).bind fun _ _ => .pure _) (Nat.zero_le _)
    case h_12 =>
      refine iff_of_true ?_ ?_
      · split
        case isTrue ha =>
          exact (h.word_succeeds ho (Op.lt_leastLength_of_isAtomic ha)).bind fun _ _ => .pure _
        case isFalse => exact .pure _
      · unfold Op.accessLength
        split <;> simp_all

end Instruction

namespace Outline

section

variable {o : Outline} (hb : o.toBinary.Framed)

include hb

theorem selectedMember?_succeeds (chain : Instruction) (v : Id) :
    Succeeds (o.selectedMember? chain v) := by
  refine (Binary.pointee?_succeeds hb v).bind fun target _ => ?_
  cases target
  case none => exact .pure _
  case some target =>
    dsimp only
    split
    case h_2 => exact .pure _
    case h_1 type hd =>
      refine .ite_bind_pure (Binary.word_of_isArray hb (Binary.mem_of_definition? hd)) fun x => ?_
      split
      case isFalse => exact .pure _
      case isTrue =>
        split
        case h_2 => exact .pure _
        case h_1 index hi =>
          split
          case isFalse => exact .pure _
          case isTrue =>
            obtain ⟨_, _, hi⟩ := Option.bind_eq_some_iff.mp hi
            exact (hb index (Binary.mem_of_definition? hi)).constantValue?_succeeds

theorem origins_succeeds (p : Place) : Succeeds (o.origins p) := by
  unfold origins
  split
  case h_2 => exact .pure _
  case h_1 i hd =>
    have hf := hb i (Binary.mem_of_definition? hd)
    split
    case h_2 => exact .pure _
    case h_1 op ho =>
      split
      case h_1 | h_2 | h_3 => exact (hf.word_succeeds ho (by decide)).bind fun _ _ => .pure _
      case h_4 => exact .pure _
      case h_5 =>
        split
        case isFalse => exact .pure _
        case isTrue ha =>
          refine (hf.word_succeeds ho (Op.lt_leastLength_of_isAccessChain ha)).bind fun base _ => ?_
          split
          case isTrue => exact (selectedMember?_succeeds hb i base).bind fun _ _ => .pure _
          case isFalse => exact .pure _

theorem variablesOf_succeeds (pointer : Id) : Succeeds (o.variablesOf pointer) :=
  (checkedSearch_succeeds (origins_succeeds hb) _ _).bind fun _ _ => .pure _

theorem accessesOf_succeeds_iff (i : Instruction) :
    Succeeds (o.accessesOf i) ↔ Succeeds i.accessed := by
  refine Succeeds.bind_iff fun accessed => ?_
  refine (Succeeds.mapM_iff.mpr fun x _ => ?_).bind fun _ _ => .pure _
  exact (variablesOf_succeeds hb x.1).bind fun _ _ => .pure _

theorem variableAccesses_succeeds_iff :
    Succeeds o.variableAccesses
      ↔ ∀ i ∈ o.instructions.toList, ∀ op ∈ i.op?, op.accessLength ≤ i.length := by
  refine (Succeeds.bind_iff fun _ => .pure _).trans (Succeeds.mapM_iff.trans ?_)
  refine forall₂_congr fun i hi => ?_
  exact (accessesOf_succeeds_iff hb i).trans (Instruction.accessed_succeeds_iff (hb i hi))

theorem elementIndex_succeeds (index : Id) : Succeeds (o.elementIndex index) := by
  unfold elementIndex
  split
  case h_2 => exact .pure _
  case h_1 i hd =>
    split
    case isTrue =>
      exact (hb i (Binary.mem_of_definition? hd)).constantValue?_succeeds.bind fun _ _ => .pure _
    case isFalse => exact .pure _

theorem walkOn_succeeds (p : WalkPoint) : Succeeds (o.walkOn p) := by
  unfold walkOn
  split
  case h_2 => exact .pure _
  case h_1 i hd =>
    have hf := hb i (Binary.mem_of_definition? hd)
    split
    case h_2 => exact .pure _
    case h_1 op ho =>
      split
      case h_1 =>
        exact (hf.word_succeeds ho (by decide)).bind fun _ _ =>
          (hf.word_succeeds ho (by decide)).bind fun _ _ => .pure _
      case h_2 | h_3 | h_4 | h_5 => exact (hf.word_succeeds ho (by decide)).bind fun _ _ => .pure _
      case h_6 =>
        split
        case isFalse => exact .pure _
        case isTrue ha =>
          have hbase := hf.word_succeeds ho (Op.lt_leastLength_of_isAccessChain ha)
          split
          case h_1 index _ =>
            exact (elementIndex_succeeds hb index).bind fun _ _ => hbase.bind fun _ _ => .pure _
          case h_2 => exact hbase.bind fun _ _ => .pure _

omit hb in
theorem visitParameter_succeeds {walk : Walk → WalkPoint → Checked Walk}
    (hw : ∀ w p, Succeeds (walk w p)) (w : Walk) (p : WalkPoint) :
    Succeeds (o.visitParameter walk w p) := by
  unfold visitParameter
  split
  case isTrue => exact .pure _
  case isFalse =>
    split
    case isTrue => exact .pure _
    case isFalse => exact (Succeeds.foldlM (fun w _ _ => hw w _) _).bind fun _ _ => .pure _

theorem walk_succeeds (nesting : Nat) (w : Walk) (p : WalkPoint) :
    Succeeds (o.walk nesting w p) := by
  induction nesting generalizing w p
  case zero => exact .pure _
  case succ nesting hi =>
    refine (checkedSearch_succeeds (walkOn_succeeds hb) _ _).bind fun points _ =>
      .foldlM (fun w p _ => ?_) w
    unfold visit
    split
    case h_1 => exact .pure _
    case h_2 =>
      split
      case h_2 => exact visitParameter_succeeds hi w p
      all_goals exact .pure _

theorem texelComponents?_succeeds (texel : Id) : Succeeds (o.texelComponents? texel) := by
  unfold texelComponents?
  split
  case h_2 => exact .pure _
  case h_1 type ht =>
    split
    case h_2 ho =>
      exact ((hb type (Binary.mem_of_typeOf? ht)).word_succeeds ho (by decide)).bind
        fun _ _ => .pure _
    all_goals exact .pure _

theorem imageAccess?_succeeds {i : Instruction} (hi : i ∈ o.instructions.toList) :
    Succeeds (o.imageAccess? i) := by
  unfold imageAccess?
  split
  case h_2 => exact .pure _
  case h_1 op ho =>
    split
    case h_2 => exact .pure _
    case h_1 image _ =>
      refine (walk_succeeds hb _ _ _).bind fun w _ => ?_
      split
      case isFalse => exact .pure _
      case isTrue h =>
        subst h
        refine ((hb i hi).word_succeeds ho (by decide)).bind fun texel _ => ?_
        exact (texelComponents?_succeeds hb texel).bind fun _ _ => .pure _

end

end Outline

namespace Binary

variable {b : Binary} {id : Id} {image : Instruction}

-- The variable `id` is a sampled image, of the type that `image` declares, or an array of such.
structure Samples (b : Binary) (id : Id) (image : Instruction) : Prop where
  pointee : ∃ type definition, b.pointee? id = .ok (some type)
    ∧ b.definition? type = some definition
  base    : ∃ type sampled, b.baseType? id = .ok (some type) ∧ type.op? = some .typeSampledImage
    ∧ type.word? 2 = some sampled ∧ b.definition? sampled = some image

theorem imageTraits_succeeds_iff (hb : b.Framed) :
    Succeeds (b.imageTraits image) ↔ 9 ≤ image.length := by
  constructor
  case mp =>
    intro h
    obtain ⟨_, _, h⟩ := h.of_bind
    obtain ⟨_, _, h⟩ := h.of_bind
    obtain ⟨w, hw, _⟩ := h.of_bind
    exact Instruction.word_iff.mp ⟨w, hw⟩
  case mpr =>
    intro hl
    have hword {k : Nat} (hk : k ≤ 8) : Succeeds (image.word k) :=
      Instruction.word_iff.mpr (by omega)
    refine (hword (by decide)).bind fun sampled _ => (hword (by decide)).bind fun _ _ => ?_
    refine (hword (by decide)).bind fun _ _ => (numericType_succeeds hb sampled).bind fun _ _ => ?_
    refine (widthOf?_succeeds hb sampled).bind fun _ _ => (hword (by decide)).bind fun _ _ => ?_
    exact (hword (by decide)).bind fun _ _ => (hword (by decide)).bind fun _ _ => .pure _

theorem descriptorType_succeeds {type : Instruction} (h : type.Framed) :
    Succeeds (b.descriptorType type) := by
  unfold descriptorType
  split
  case h_2 ho =>
    refine (h.word_succeeds ho (by decide)).bind fun _ _ => ?_
    split <;> exact .pure _
  all_goals exact .pure _

theorem of_descriptorType {type : Instruction} {kind : ResourceKind}
    (h : b.descriptorType type = .ok (.resource kind (some image))) :
    type.op? = some .typeImage ∧ image = type
      ∨ ∃ sampled, type.op? = some .typeSampledImage ∧ type.word? 2 = some sampled
        ∧ b.definition? sampled = some image := by
  unfold descriptorType at h
  split at h
  case h_1 ho =>
    cases h
    exact .inl ⟨ho, rfl⟩
  case h_2 ho =>
    obtain ⟨sampled, hw, h⟩ := ok_of_bind h
    split at h
    case h_1 hi =>
      cases h
      exact .inr ⟨sampled, ho, Instruction.word?_of_word hw, hi⟩
    case h_2 => cases h
  all_goals cases h

theorem descriptorType_of_sampled {type : Instruction} {sampled : Id}
    (ho : type.op? = some .typeSampledImage) (hw : type.word? 2 = some sampled)
    (hi : b.definition? sampled = some image) :
    b.descriptorType type = .ok (.resource .image (some image)) := by
  simp [descriptorType, ho, Instruction.word, hw, hi, bind, Except.bind, pure, Except.pure]

end Binary

def StorageClass.isDescriptor : StorageClass → Bool
  | .uniform | .uniformConstant | .storageBuffer | .physicalStorageBuffer => true
  | _ => false

namespace Outline

structure Binds (o : Outline) (e : Instruction) (id : Id) : Prop where
  declared : ∃ v ∈ o.variableInstructions, ∃ c,
    v.resultId? = some id ∧ v.storageClass? = .ok (some c) ∧ c.isDescriptor
  model    : ((e.word? 1).bind fun w => ExecutionModel.ofNumber? w.toNat).isSome
  reached  : ∃ entry, e.word? 2 = some entry ∧ (o.reachable entry).contains id

-- The sampled images that entry points bind have types with all the words of an image type.
def Described (o : Outline) : Prop :=
  ∀ e ∈ o.entryPointInstructions, ∀ id, o.Binds e id → ∀ image, o.Samples id image →
    9 ≤ image.length

end Outline

namespace Findings

variable {o : Outline} {f : Findings}

theorem toOutline_of_ofOutline (h : ofOutline o = .ok f) : f.toOutline = o := by
  obtain ⟨_, _, h⟩ := ok_of_bind h
  obtain ⟨_, _, h⟩ := ok_of_bind h
  obtain ⟨_, _, h⟩ := ok_of_bind h
  cases h
  rfl

theorem ofOutline_succeeds_iff (hb : o.toBinary.Framed)
    (hc : Catalog.Sorts o.instructions.toList o.toCatalog) :
    Succeeds (ofOutline o) ↔ ∀ i ∈ o.instructions.toList, ∀ op ∈ i.op?, op.accessLength
      ≤ i.length := by
  rw [← Outline.variableAccesses_succeeds_iff hb]
  constructor
  case mp =>
    intro h
    obtain ⟨_, _, h⟩ := h.of_bind
    obtain ⟨a, ha, _⟩ := h.of_bind
    exact ⟨a, ha⟩
  case mpr =>
    intro h
    refine (StructTable.ofOutline_succeeds hb).bind fun _ _ => h.bind fun _ _ => ?_
    refine .bind (Succeeds.filterMapM_iff.mpr fun i hi => ?_) fun _ _ => .pure _
    rw [hc.images] at hi
    exact Outline.imageAccess?_succeeds hb (mem_of_mem_filter hi)

section

variable (hb : f.toBinary.Framed)

include hb

theorem resource?_succeeds_iff (id : Id) (storageClass : StorageClass) (reached : Std.TreeSet Id)
    (images : List ImageAccess) :
    Succeeds (f.resource? id storageClass reached images) ↔ ∀ image, f.Samples id image →
      9 ≤ image.length := by
  constructor
  case mp =>
    intro h image hs
    obtain ⟨type, definition, ht, hd⟩ := hs.pointee
    obtain ⟨base, sampled, hbase, ho, hw, hi⟩ := hs.base
    obtain ⟨baseType, hid⟩ := (hb base (Binary.mem_of_baseType? hbase)).exists_resultId? ho rfl
    replace h := (Succeeds.bind_of_ok ht).mp h
    simp only [hd] at h
    replace h := (Succeeds.bind_of_ok hbase).mp h
    simp only [hid] at h
    obtain ⟨length, h⟩ := h.of_ite_bind
    replace h := (Succeeds.bind_of_ok (Binary.descriptorType_of_sampled ho hw hi)).mp h
    obtain ⟨_, h, _⟩ := h.of_bind
    exact (Binary.imageTraits_succeeds_iff hb).mp ⟨_, h⟩
  case mpr =>
    intro h
    refine (Binary.pointee?_succeeds hb id).bind fun type ht => ?_
    cases type
    case none => exact .pure _
    case some type =>
      dsimp only
      split
      case h_2 => exact .pure _
      case h_1 definition hd =>
        refine (Binary.baseType?_succeeds hb id).bind fun base hbase => ?_
        cases base
        case none => exact .pure _
        case some base =>
          dsimp only
          split
          case h_2 => exact .pure _
          case h_1 =>
            have hf := hb base (Binary.mem_of_baseType? hbase)
            refine .ite_bind (fun ha => ?_) (fun _ => .pure _) fun length => ?_
            · exact (Binary.arrayLength_succeeds hb (Binary.mem_of_definition? hd)
                (Instruction.op?_of_is ha)).map
            · refine (Binary.descriptorType_succeeds hf).bind fun described hdescribed => ?_
              cases described
              case undefined | unsupported => exact .pure _
              case resource kind image =>
                cases image
                case none => exact .pure _
                case some image =>
                  refine ((Binary.imageTraits_succeeds_iff hb).mpr ?_).bind fun _ _ => .pure _
                  -- The opcode makes an image long enough, unless a sampled image names it.
                  obtain ⟨ho, rfl⟩ | ⟨sampled, hsampled⟩ := Binary.of_descriptorType hdescribed
                  · exact Instruction.word_iff.mp (hf.word_succeeds ho (by decide : 8 < _))
                  · exact h image ⟨⟨type, definition, ht, hd⟩, base, sampled, hbase, hsampled⟩

theorem placeVariable_succeeds (id type : Id) (isArrayInterface : Bool)
    (struct : Option StructInfo) :
    Succeeds (f.placeVariable id type isArrayInterface struct) := by
  unfold placeVariable
  dsimp only
  split
  all_goals refine .bind ?_ fun type _ => ?_
  case h_1.refine_1 array ha =>
    obtain ⟨hd, ha⟩ := Option.filter_eq_some_iff.mp ha
    have ha : array.isArray := by simp_all
    exact Binary.word_of_isArray hb (Binary.mem_of_definition? hd) ha
  case h_2.refine_1 => exact .pure _
  all_goals
    split
    case h_1 => exact Binary.place_succeeds hb _ _ _
    case h_2 =>
      refine (Succeeds.foldlM (fun _ _ _ => ?_) _).bind fun _ _ => .pure _
      exact (Binary.place_succeeds hb _ _ _).bind fun _ _ => .pure _
    case h_3 => exact .pure _

theorem stageVariable?_succeeds (model : ExecutionModel) (id : Id) (storageClass : StorageClass) :
    Succeeds (f.stageVariable? model id storageClass) := by
  refine (Binary.pointee?_succeeds hb id).bind fun type _ => ?_
  cases type
  case none => exact .pure _
  case some type =>
    refine (Binary.baseType?_succeeds hb id).bind fun base _ => ?_
    cases base
    case none => exact .pure _
    case some base =>
      dsimp only
      split
      case h_2 => exact .pure _
      case h_1 =>
        split
        case isTrue => exact .pure _
        case isFalse => exact (placeVariable_succeeds hb _ _ _ _).bind fun _ _ => .pure _

theorem pushConstants?_succeeds (id : Id) : Succeeds (f.pushConstants? id) := by
  refine (Binary.baseType?_succeeds hb id).bind fun base _ => ?_
  cases base <;> exact .pure _

theorem addUsed_succeeds_iff {i : Instruction} (hi : i.Framed) (ho : i.op? = some .variable)
    (model : ExecutionModel) (listed : List Id) (reached : Std.TreeSet Id)
    (images : List ImageAccess) (u : Used) :
    Succeeds (f.addUsed model listed reached images u i) ↔ ∀ id, i.resultId? = some id →
      ∀ c, i.storageClass? = .ok (some c) → c.isDescriptor → reached.contains id →
        ∀ image, f.Samples id image → 9 ≤ image.length := by
  obtain ⟨id, hid⟩ := hi.exists_resultId? ho rfl
  obtain ⟨c, hc⟩ := hi.storageClass?_succeeds (by simp [ho])
  unfold addUsed
  simp only [hid, hc, Option.some.injEq, forall_eq']
  refine (Succeeds.bind_of_ok rfl).trans ?_
  cases c
  case none => exact iff_of_true (.pure _) fun _ h => by cases h
  case some c =>
    simp only [Except.ok.injEq, Option.some.injEq, forall_eq']
    split
    case h_1 | h_2 | h_3 | h_4 =>
      split
      case isTrue hr =>
        simp only [hr, StorageClass.isDescriptor, true_imp_iff]
        exact (Succeeds.bind_iff fun _ => .pure _).trans (resource?_succeeds_iff hb ..)
      case isFalse hr => exact iff_of_true (.pure _) fun _ h => absurd h hr
    -- No other class binds a descriptor.
    case h_5 | h_6 =>
      refine iff_of_true ?_ (by rintro ⟨⟩)
      split
      case isTrue => exact (stageVariable?_succeeds hb ..).bind fun _ _ => .pure _
      case isFalse => exact .pure _
    case h_7 =>
      refine iff_of_true ?_ (by rintro ⟨⟩)
      split
      case isTrue => exact (pushConstants?_succeeds hb _).bind fun _ _ => .pure _
      case isFalse => exact .pure _
    case h_8 =>
      refine iff_of_true (.pure _) fun h => ?_
      unfold StorageClass.isDescriptor at h
      split at h <;> simp_all

theorem entryPoint?_succeeds_iff (hc : Catalog.Sorts f.instructions.toList f.toCatalog)
    (e : Instruction) :
    Succeeds (f.entryPoint? e) ↔ ∀ id, f.Binds e id → ∀ image, f.Samples id image →
      9 ≤ image.length := by
  unfold entryPoint?
  split
  case h_2 hm =>
    exact iff_of_true (.pure _) fun _ h =>
      absurd h.model (by simp [Option.eq_none_iff_forall_ne_some.mpr hm])
  case h_1 model hm =>
    split
    case h_2 he =>
      refine iff_of_true (.pure _) fun _ h => ?_
      obtain ⟨entry, h, _⟩ := h.reached
      exact absurd h (he entry)
    case h_1 entry he =>
      -- Only variables come to `addUsed`, one after another.
      have hglobal : ∀ v ∈ f.variableInstructions, v.Framed ∧ v.op? = some .variable := by
        rw [hc.globals]
        intro v hv
        obtain ⟨hv, op, ho, hop⟩ := Catalog.mem_having hv
        exact ⟨hb v hv, by simpa [ho] using hop⟩
      have hadd := fun images u v hv => addUsed_succeeds_iff hb (hglobal v hv).left
        (hglobal v hv).right model
        (e.words.drop (3 + e.stringLengthAt 3)) (f.reachable entry) images u
      refine (Succeeds.bind_iff fun _ => .pure _).trans ((Succeeds.foldlM_iff (hadd _) _).trans ?_)
      constructor
      case mp =>
        intro h id hbinds
        obtain ⟨v, hv, c, hid, hsc, hd⟩ := hbinds.declared
        obtain ⟨entry', he', hr⟩ := hbinds.reached
        cases he.symm.trans he'
        exact h v hv id hid c hsc hd hr
      case mpr =>
        intro h v hv id hid c hsc hd hr
        exact h id ⟨⟨v, hv, c, hid, hsc, hd⟩, by simp [hm], entry, he, hr⟩

end

end Findings

theorem Module.ofWords_eq {words : List Word} {b : Binary} (h : Binary.ofWords words = .ok b) :
    ofWords words = (ofBinary b).mapError .fault := by
  rw [ofWords, analyse, h]
  rfl

theorem Module.ofBinary_succeeds_iff {b : Binary} (hb : b.Framed) : Succeeds (Module.ofBinary b) ↔
    (∀ i ∈ b.instructions.toList, i.Readable) ∧ ∀ o, Outline.ofBinary b = .ok o → o.Described := by
  constructor
  case mp =>
    intro h
    obtain ⟨o, ho, h⟩ := h.of_bind
    obtain ⟨f, hf, h⟩ := h.of_bind
    obtain ⟨entries, he, _⟩ := h.of_bind
    obtain ⟨rfl, hc⟩ := Outline.of_ofBinary ho
    obtain rfl := Findings.toOutline_of_ofOutline hf
    have haccess := (Findings.ofOutline_succeeds_iff hb hc).mp ⟨f, hf⟩
    refine ⟨fun i hi => ⟨fun hcap => ?_, haccess i hi⟩, fun o' ho' => ?_⟩
    · exact Instruction.word_iff.mp (hc.capabilities i hi hcap)
    · cases ho.symm.trans ho'
      intro e hmem
      exact (Findings.entryPoint?_succeeds_iff hb hc e).mp
        (Succeeds.filterMapM_iff.mp ⟨entries, he⟩ e hmem)
  case mpr =>
    intro ⟨hr, hd⟩
    refine (Outline.ofBinary_succeeds hb fun i hi => (hr i hi).capability).bind fun o ho => ?_
    have hdescribed := hd o ho
    obtain ⟨rfl, hc⟩ := Outline.of_ofBinary ho
    refine ((Findings.ofOutline_succeeds_iff hb hc).mpr fun i hi => (hr i hi).access).bind
      fun f hf => ?_
    obtain rfl := Findings.toOutline_of_ofOutline hf
    refine (Succeeds.filterMapM_iff.mpr fun e he => ?_).bind fun _ _ => .pure _
    exact (Findings.entryPoint?_succeeds_iff hb hc e).mpr (hdescribed e he)

end Shader
