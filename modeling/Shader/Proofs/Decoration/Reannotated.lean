import Shader.Proofs.Analysis.Reachable
import Shader.Proofs.Decoration.Alike
import Shader.Proofs.Decoration.Order

namespace Shader

open List

def StructMember.unplaced (m : StructMember) : StructMember :=
  { m with instruction := 0 }

theorem StructMember.unplaced_eq_iff {m m' : StructMember} :
    m.unplaced = m'.unplaced ↔ m.type = m'.type ∧ m.struct = m'.struct
      ∧ m.decorations = m'.decorations := by
  simp [unplaced]

def StructInfo.unplaced (s : StructInfo) : StructInfo :=
  { s with members := s.members.map StructMember.unplaced }

def StageVariable.unplaced (v : StageVariable) : StageVariable :=
  { v with struct := v.struct.map StructInfo.unplaced }

def PushConstants.unplaced (p : PushConstants) : PushConstants :=
  { p with struct := p.struct.unplaced }

theorem forall₂_of_map_eq_map {α β : Type} {f : α → β} {l l' : List α} (h : l.map f = l'.map f) :
    Forall₂ (fun a a' => f a = f a') l l' := by
  rwa [← forall₂_eq_eq_eq, forall₂_map_left_iff, forall₂_map_right_iff] at h

namespace Outline

structure Alike (o o' : Outline) : Prop where
  definitions : o.toBinary.Alike o'.toBinary
  decorations : ∀ id, o.decorationsOf id = o'.decorationsOf id

end Outline

namespace StructTable

variable {o o' : Outline} {t t' : StructTable} {m m' : StructMember} {ms ms' : List StructMember}

def Alike (t t' : StructTable) : Prop :=
  ∀ id : Id, (t[id]?).map StructInfo.unplaced = (t'[id]?).map StructInfo.unplaced

theorem Alike.limitOf (h : t.Alike t') (id : Option Id) : t.limitOf id = t'.limitOf id := by
  unfold StructTable.limitOf
  cases id
  case none => rfl
  case some id =>
    have hid := h id
    simp only [Option.bind_some]
    cases hs : t[id]? <;> cases hs' : t'[id]?
      <;> simp only [hs, hs', Option.map_none, Option.map_some, reduceCtorEq, Option.some.injEq]
      at hid ⊢
    case some.some => simp_all [StructInfo.unplaced]

theorem Alike.contains (h : t.Alike t') (id : Id) : t.contains id = t'.contains id := by
  rw [Std.TreeMap.contains_eq_isSome_getElem?, Std.TreeMap.contains_eq_isSome_getElem?,
    ← Option.isSome_map (f := StructInfo.unplaced), h id, Option.isSome_map]

theorem memberSize_agree (h : o.Alike o') (ht : t.Alike t') (hm : m.unplaced = m'.unplaced) :
    Agree Eq (t.memberSize o m) (t'.memberSize o' m') := by
  obtain ⟨htype, hstruct, _⟩ := StructMember.unplaced_eq_iff.mp hm
  have hd := h.definitions m.type
  unfold memberSize
  rw [← htype, ← hstruct]
  generalize o.definition? m.type = d at hd ⊢
  generalize o'.definition? m.type = d' at hd ⊢
  cases hd
  case none => exact .pure rfl
  case some i i' hi =>
    simp only [hi.op?, ht.limitOf, ← h.decorations]
    split
    case h_1 | h_3 => exact .pure rfl
    case h_2 =>
      refine .step (h.definitions.arrayLength hi) fun _ => ?_
      split
      case h_1 | h_2 => exact .pure rfl
      case h_3 =>
        exact .step (hi.word 2) fun element => .step (h.definitions.shape element)
          fun _ => .pure rfl
    case h_4 => exact .step (h.definitions.shape m.type) fun _ => .pure rfl

theorem offset?_unplaced (m : StructMember) : m.unplaced.offset? = m.offset? :=
  rfl

theorem highest?_map_unplaced (ms : List StructMember) :
    highest? (ms.map StructMember.unplaced)
      = (highest? ms).map (Prod.map id StructMember.unplaced) := by
  induction ms
  case nil => rfl
  case cons m ms hi =>
    simp only [map_cons, highest?, hi, offset?_unplaced]
    cases m.offset? <;> cases highest? ms <;> simp
    split <;> rfl

theorem rangeOf_agree (h : o.Alike o') (ht : t.Alike t')
    (hms : ms.map StructMember.unplaced = ms'.map StructMember.unplaced) :
    Agree Eq (t.rangeOf o ms) (t'.rangeOf o' ms') := by
  have hhigh : (highest? ms).map (Prod.map id StructMember.unplaced)
      = (highest? ms').map (Prod.map id StructMember.unplaced) := by
    rw [← highest?_map_unplaced, hms, highest?_map_unplaced]
  have hoffsets : ms.filterMap StructMember.offset? = ms'.filterMap StructMember.offset? := by
    have hl := congrArg (filterMap StructMember.offset?) hms
    simpa only [filterMap_map, Function.comp_def, offset?_unplaced] using hl
  unfold rangeOf
  generalize highest? ms = x at hhigh ⊢
  generalize highest? ms' = x' at hhigh ⊢
  cases x <;> cases x' <;> simp only [Option.map_none, Option.map_some, reduceCtorEq,
    Option.some.injEq] at hhigh
  case some.some x x' =>
    obtain ⟨hoffset, hm⟩ := Prod.mk.inj hhigh
    refine .step (memberSize_agree h ht hm) fun size => .pure ?_
    simp_all
  case none.none =>
    exact .step (.mapM (forall₂_of_map_eq_map hms) fun _ _ hm => memberSize_agree h ht hm)
      fun _ => .pure rfl

theorem member?_agree (h : o.Alike o') (ht : t.Alike t') (decorations : DecorationSet) (index : Nat)
    (type : Id) :
    Agree (fun x y => x.map StructMember.unplaced = y.map StructMember.unplaced)
      (t.member? o decorations index type) (t'.member? o' decorations index type) := by
  have hd := h.definitions type
  unfold member?
  generalize o.definition? type = d at hd ⊢
  generalize o'.definition? type = d' at hd ⊢
  cases hd
  case none => exact .pure rfl
  case some i i' hi =>
    refine .bind (h.definitions.stripArraysTo Binary.typeDepth hi) fun base base' hbase => .pure ?_
    have hid : base.bind (·.resultId?) = base'.bind (·.resultId?) := by
      cases hbase
      case none => rfl
      case some hb => exact hb.resultId?
    simp [StructMember.unplaced, hid, ht.contains]

theorem addStruct_agree (h : o.Alike o') (ht : t.Alike t') {i i' : Instruction} (hi : i.Alike i') :
    Agree Alike (addStruct o t i) (addStruct o' t' i') := by
  unfold addStruct
  rw [hi.resultId?]
  cases i'.resultId?
  case none => exact .pure ht
  case some id =>
    simp only [hi.operands, h.decorations id]
    refine .bind (.filterMapM (r := Eq) (u := StructMember.unplaced) (forall₂_refl _) fun x _ hx =>
      ?_) fun ms ms' hms => ?_
    case refine_1 => exact hx ▸ member?_agree h ht _ x.2 x.1
    refine .step (rangeOf_agree h ht hms) fun range => .pure fun x => ?_
    rw [Std.TreeMap.getElem?_insert, Std.TreeMap.getElem?_insert]
    split
    case isTrue => simp [StructInfo.unplaced, hms]
    case isFalse => exact ht x

theorem ofOutline_agree (h : o.Alike o')
    (hs : Forall₂ Instruction.Alike o.structInstructions o'.structInstructions) :
    Agree Alike (ofOutline o) (ofOutline o') :=
  .foldlM hs (fun _ _ _ _ ht hi => addStruct_agree h ht hi) fun _ => rfl

end StructTable

namespace Findings

variable {f f' : Findings}

structure Alike (f f' : Findings) : Prop extends f.toOutline.Alike f'.toOutline where
  structs : f.structs.Alike f'.structs

structure Used.Alike (u u' : Used) : Prop where
  stageVariables : u.stageVariables.map StageVariable.unplaced
    = u'.stageVariables.map StageVariable.unplaced
  pushConstants  : u.pushConstants.map PushConstants.unplaced
    = u'.pushConstants.map PushConstants.unplaced

variable (h : f.Alike f')

include h

theorem placeBlock_agree {info info' : StructInfo} (hinfo : info.unplaced = info'.unplaced) :
    Agree Eq (f.placeBlock info) (f'.placeBlock info') := by
  have hms : info.members.map StructMember.unplaced = info'.members.map StructMember.unplaced :=
    congrArg StructInfo.members hinfo
  refine .step (.foldlM (forall₂_of_map_eq_map hms) (fun x _ m m' hx hm => ?_) rfl)
    fun _ => .pure rfl
  subst hx
  obtain ⟨htype, _, hdecorations⟩ := StructMember.unplaced_eq_iff.mp hm
  simp only [placeBlock.step, ← htype, ← hdecorations]
  exact .step (h.definitions.place _ _ _) fun _ => .pure rfl

theorem placeVariable_agree (id type : Id) (isArrayInterface : Bool)
    {struct struct' : Option StructInfo}
    (hstruct : struct.map StructInfo.unplaced = struct'.map StructInfo.unplaced) :
    Agree Eq (f.placeVariable id type isArrayInterface struct)
      (f'.placeVariable id type isArrayInterface struct') := by
  have harray : Option.Rel Instruction.Alike
      ((f.definition? type).filter (·.isArray && isArrayInterface))
      ((f'.definition? type).filter (·.isArray && isArrayInterface)) := by
    have hd := h.definitions type
    generalize f.definition? type = d at hd ⊢
    generalize f'.definition? type = d' at hd ⊢
    cases hd
    case none => exact .none
    case some i i' hi =>
      simp only [Option.filter_some, hi.isArray]
      split
      case isTrue => exact .some hi
      case isFalse => exact .none
  unfold placeVariable
  simp only [h.decorations]
  -- From here on only the array, the location and the struct matter.
  generalize (f.definition? type).filter (·.isArray && isArrayInterface) = d at harray ⊢
  generalize (f'.definition? type).filter (·.isArray && isArrayInterface) = d' at harray ⊢
  cases (f'.decorationsOf id).base.location
  case some location =>
    cases harray
    case none => exact .step (.pure rfl) fun _ => h.definitions.place _ _ _
    case some hi => exact .step (hi.word 2) fun _ => h.definitions.place _ _ _
  case none =>
    cases struct <;> cases struct' <;>
      simp only [Option.map_none, Option.map_some, reduceCtorEq, Option.some.injEq] at hstruct
    case none.none =>
      cases harray
      case none => exact .step (.pure rfl) fun _ => .pure rfl
      case some hi => exact .step (hi.word 2) fun _ => .pure rfl
    case some.some =>
      cases harray
      case none => exact .step (.pure rfl) fun _ => placeBlock_agree h hstruct
      case some hi => exact .step (hi.word 2) fun _ => placeBlock_agree h hstruct

theorem stageVariable?_agree (model : ExecutionModel) (id : Id) (storageClass : StorageClass) :
    Agree (fun v v' => v.map StageVariable.unplaced = v'.map StageVariable.unplaced)
      (f.stageVariable? model id storageClass) (f'.stageVariable? model id storageClass) := by
  refine .step (h.definitions.pointee? id) fun type => ?_
  cases type
  case none => exact .pure rfl
  case some type =>
    refine .bind (h.definitions.baseType? id) fun base base' hbase => ?_
    cases hbase
    case none => exact .pure rfl
    case some base base' hb =>
      simp only [hb.resultId?]
      cases base'.resultId?
      case none => exact .pure rfl
      case some baseType =>
        simp only [h.decorations]
        split
        case isTrue => exact .pure (by simp [StageVariable.unplaced, h.structs baseType])
        case isFalse =>
          refine .step (placeVariable_agree h id type _ (h.structs baseType))
            fun placement => .pure ?_
          simp [StageVariable.unplaced, h.structs baseType]

theorem pushConstants?_agree (id : Id) :
    Agree (fun p p' => p.map PushConstants.unplaced = p'.map PushConstants.unplaced)
      (f.pushConstants? id) (f'.pushConstants? id) := by
  refine .bind (h.definitions.baseType? id) fun base base' hbase => ?_
  cases hbase
  case none => exact .pure rfl
  case some base base' hb =>
    refine .pure ?_
    rw [hb.resultId?, Option.map_map, Option.map_map]
    cases base'.resultId?
    case none => rfl
    case some type =>
      have hs := congrArg (Option.map (PushConstants.mk id)) (h.structs type)
      rwa [Option.map_map, Option.map_map] at hs

theorem addUsed_agree {i i' : Instruction} (hi : i.Alike i') (model : ExecutionModel)
    (listed : List Id) (reached : Std.TreeSet Id) (images images' : List ImageAccess) {u u' : Used}
    (hu : u.Alike u') :
    Agree Used.Alike (f.addUsed model listed reached images u i)
      (f'.addUsed model listed reached images' u' i') := by
  have hnone : u.pushConstants.isNone = u'.pushConstants.isNone := by
    rw [← Option.isNone_map (f := PushConstants.unplaced), hu.pushConstants, Option.isNone_map]
  unfold addUsed
  rw [hi.resultId?]
  cases i'.resultId?
  case none => exact .pure hu
  case some id =>
    refine .step hi.storageClass? fun storageClass => ?_
    cases storageClass
    case none => exact .pure hu
    case some storageClass =>
      cases storageClass
      case input | output =>
        dsimp only
        split
        case isFalse => exact .pure hu
        case isTrue =>
          refine .bind (stageVariable?_agree h model id _) fun v v' hv =>
            .pure ⟨?_, hu.pushConstants⟩
          rw [map_append, map_append, hu.stageVariables, ← Option.toList_map, hv, Option.toList_map]
      case pushConstant =>
        simp only [hnone]
        split
        case isFalse => exact .pure hu
        case isTrue =>
          exact .bind (pushConstants?_agree h id) fun p p' hp => .pure ⟨hu.stageVariables, hp⟩
      case uniform | uniformConstant | storageBuffer | physicalStorageBuffer =>
        dsimp only
        split
        case isFalse => exact .pure hu
        case isTrue =>
          -- What is found out about resources does not matter here.
          refine .bind (r := fun _ _ => True) (fun _ _ _ _ => trivial) fun _ _ _ => ?_
          exact .pure ⟨hu.stageVariables, hu.pushConstants⟩
      all_goals exact .pure hu

end Findings

theorem Op.outcome_of_annotates {op : Op} (h : op.isAnnotation) : op.outcome = .nothing := by
  unfold isAnnotation at h
  split at h <;> first | rfl | cases h

namespace Instruction

def annotates (i : Instruction) : Bool :=
  i.op?.any Op.isAnnotation

theorem resultId?_of_annotates {i : Instruction} (h : i.annotates) : i.resultId? = none := by
  unfold annotates at h
  cases ho : i.op?
  case none => simp [ho] at h
  case some op =>
    have hn : i.outcome = .nothing := by
      rw [outcome, ho]
      exact Op.outcome_of_annotates (by simpa [ho] using h)
    rw [resultId?, hn]

theorem uses_of_annotates {i : Instruction} (h : i.annotates) : i.uses = [] := by
  unfold annotates at h
  cases ho : i.op?
  case none => simp [ho] at h
  case some op =>
    have hop : op.isAnnotation := by simpa [ho] using h
    unfold Op.isAnnotation at hop
    split at hop <;> simp_all [uses, Op.isAccessChain, Op.isAtomic, Op.imagePosition?]

end Instruction

-- The modules have the same annotations, and all else in the same order.
structure Binary.Reannotates (b b' : Binary) : Prop where
  annotations : SameAnnotations (b.instructions.toList.filter Instruction.annotates)
    (b'.instructions.toList.filter Instruction.annotates)
  others      : (b.instructions.toList.filter (!·.annotates)).map Instruction.words
    = (b'.instructions.toList.filter (!·.annotates)).map Instruction.words

namespace Binary.Reannotates

variable {b b' : Binary} (h : b.Reannotates b')

include h

theorem symm : b'.Reannotates b :=
  ⟨h.annotations.symm, h.others.symm⟩

theorem alike_filter {op : Op} (hop : op.isAnnotation = false) :
    Forall₂ Instruction.Alike (b.instructions.toList.filter (·.op?.any (· == op)))
      (b'.instructions.toList.filter (·.op?.any (· == op))) := by
  have hfilter (l : List Instruction) :
      l.filter (·.op?.any (· == op)) = (l.filter (!·.annotates)).filter (·.op?.any (· == op)) := by
    rw [filter_filter]
    refine filter_congr fun i _ => ?_
    unfold Instruction.annotates
    cases i.op?
    case none => rfl
    case some op' => by_cases heq : op' = op <;> simp [heq, hop]
  rw [hfilter, hfilter b'.instructions.toList]
  exact rel_filter (fun i i' hi => by simp only [Instruction.Alike.op? hi])
    (forall₂_of_map_eq_map h.others)

variable (hx : b.Indexed) (hx' : b'.Indexed)

include hx hx'

theorem alike_definition? {id : Id} {i : Instruction} (hd : b.definition? id = some i) :
    ∃ i', b'.definition? id = some i' ∧ i.Alike i' := by
  obtain ⟨hi, hid⟩ := hx.definition?_eq_some_iff.mp hd
  have hother : i.annotates = false := by
    by_contra hi
    simp [Instruction.resultId?_of_annotates (by simpa using hi)] at hid
  have hmem : i.words ∈ (b.instructions.toList.filter (!·.annotates)).map Instruction.words :=
    mem_map_of_mem (mem_filter.mpr ⟨hi, by simp [hother]⟩)
  rw [h.others] at hmem
  obtain ⟨i', hi', hw⟩ := mem_map.mp hmem
  have ha : i.Alike i' := hw.symm
  exact ⟨i', hx'.definition?_eq_some_iff.mpr ⟨mem_of_mem_filter hi', ha.resultId?.symm.trans hid⟩,
    ha⟩

theorem alike : b.Alike b' := by
  intro id
  cases hd : b.definition? id
  case some i =>
    obtain ⟨i', hd', hi⟩ := h.alike_definition? hx hx' hd
    rw [hd']
    exact .some hi
  case none =>
    cases hd' : b'.definition? id
    case none => exact .none
    case some i' =>
      obtain ⟨i, hi, _⟩ := h.symm.alike_definition? hx' hx hd'
      simp [hd] at hi

theorem contains_definitions_eq (id : Id) :
    b.definitions.contains id = b'.definitions.contains id := by
  rw [hx.contains_definitions, hx'.contains_definitions]
  have hd := h.alike hx hx' id
  generalize b.definition? id = d at hd ⊢
  generalize b'.definition? id = d' at hd ⊢
  cases hd <;> rfl

end Binary.Reannotates

section

variable {α : Type}

theorem bodies_filter (op? : α → Option Op) (id : α → Id) {p : α → Bool}
    (hp : ∀ a, op? a = some .function ∨ op? a = some .functionEnd → p a)
    (current : Option (Id × List α)) (as : List α) :
    bodies op? id (current.map fun x => (x.1, x.2.filter p)) (as.filter p)
      = (bodies op? id current as).map fun x => (x.1, x.2.filter p) := by
  induction as generalizing current
  case nil => rfl
  case cons a as hi =>
    -- What opens or closes a function is kept by `p`, so the bodies stay apart.
    by_cases hf : op? a = some .function
    case pos =>
      have ha : p a = true := hp a (.inl hf)
      rw [filter_cons_of_pos ha, bodies_start op? hf, bodies_start op? hf]
      simpa [ha] using hi (some (id a, [a]))
    case neg =>
      cases current
      case none =>
        rw [bodies_outside op? hf, ← hi none]
        cases ha : p a
        case false => rw [filter_cons_of_neg (by simp [ha])]
        case true => rw [filter_cons_of_pos ha, Option.map_none, bodies_outside op? hf]
      case some x =>
        rw [Option.map_some]
        by_cases he : op? a = some .functionEnd
        case pos =>
          have ha : p a = true := hp a (.inr he)
          rw [filter_cons_of_pos ha, bodies_finish op? he, bodies_finish op? he]
          simpa [ha] using hi none
        case neg =>
          rw [bodies_inside op? hf he, ← hi]
          cases ha : p a
          case false => simp [filter_cons_of_neg, ha]
          case true =>
            rw [filter_cons_of_pos ha, bodies_inside op? hf he]
            simp [ha]

end

namespace Instruction

theorem Framed.of_alike {i i' : Instruction} (h : i.Framed) (ha : i.Alike i') : i'.Framed where
  length := by
    rw [Instruction.length, ← show i.words = i'.words from ha]
    exact h.length
  pos := by
    rw [Instruction.length, ← show i.words = i'.words from ha]
    exact h.pos
  least := by
    rw [Instruction.length, ← ha.op?, ← show i.words = i'.words from ha]
    exact h.least

def bare (i : Instruction) : Instruction :=
  ⟨0, 0, i.words⟩

theorem map_bare_eq {is is' : List Instruction} (h : is.map words = is'.map words) :
    is.map bare = is'.map bare := by
  have hb := congrArg (map (Instruction.mk 0 0)) h
  rwa [map_map, map_map] at hb

end Instruction

namespace Outline

variable {b b' : Binary} {o o' : Outline}

theorem flatMap_uses_functionBody (ho : ofBinary b = .ok o) (hx : b.Indexed) (id : Id) :
    (o.functionBody id).flatMap Instruction.uses
      = ((bodies Instruction.op? (·.resultId?.getD 0) none
        ((b.instructions.toList.filter (!·.annotates)).map Instruction.bare)).find?
          (·.1 == id)).elim [] (·.2.flatMap Instruction.uses) := by
  have hp (i : Instruction) (hi : i.op? = some .function ∨ i.op? = some .functionEnd) :
      (!i.annotates) = true := by
    obtain hi | hi := hi <;> simp [Instruction.annotates, hi, Op.isAnnotation]
  have hfilter := bodies_filter Instruction.op? (·.resultId?.getD 0) hp none b.instructions.toList
  have hbare := bodies_map Instruction.op? (·.resultId?.getD 0) Instruction.bare none
    (b.instructions.toList.filter (!·.annotates))
  have hop : Instruction.op? ∘ Instruction.bare = Instruction.op? := rfl
  have hid : (fun i : Instruction => i.resultId?.getD 0) ∘ Instruction.bare =
    fun i => i.resultId?.getD 0 := rfl
  rw [Option.map_none] at hfilter hbare
  rw [hop, hid, hfilter, map_map] at hbare
  -- Annotations use nothing, and what is used does not depend on places.
  have huses (body : List Instruction) :
      ((body.filter (!·.annotates)).map Instruction.bare).flatMap Instruction.uses
      = body.flatMap Instruction.uses := by
    induction body
    case nil => rfl
    case cons i body hi =>
      cases ha : i.annotates
      case false =>
        rw [filter_cons_of_pos (by simp [ha]), map_cons, flatMap_cons, flatMap_cons, hi]
        rfl
      case true =>
        rw [filter_cons_of_neg (by simp [ha]), flatMap_cons, Instruction.uses_of_annotates ha, hi,
          nil_append]
  rw [functionBody_eq ho hx.place, hbare, find?_map]
  generalize bodies Instruction.op? (·.resultId?.getD 0) none b.instructions.toList = found
  have hfind : found.find? ((fun x => x.1 == id) ∘ (fun x => (x.1, x.2.map Instruction.bare))
      ∘ fun x => (x.1, x.2.filter (!·.annotates))) = found.find? (·.1 == id) := rfl
  rw [hfind]
  cases found.find? (·.1 == id)
  case none => rfl
  case some x => exact (huses x.2).symm

section

variable (h : b.Reannotates b') (hx : b.Indexed) (hx' : b'.Indexed) (ho : ofBinary b = .ok o)
  (ho' : ofBinary b' = .ok o')

include h hx hx' ho ho'

theorem leadsTo_eq_of_reannotates (id : Id) : o.leadsTo id = o'.leadsTo id := by
  have huses := flatMap_uses_functionBody ho hx id
  rw [Instruction.map_bare_eq h.others, ← flatMap_uses_functionBody ho' hx' id] at huses
  obtain ⟨rfl, _⟩ := of_ofBinary ho
  obtain ⟨rfl, _⟩ := of_ofBinary ho'
  unfold leadsTo
  rw [(h.alike hx hx').opOf?, huses]

theorem reachable_eq_of_reannotates (entry : Id) : o.reachable entry = o'.reachable entry := by
  refine reachable_congr (funext (leadsTo_eq_of_reannotates h hx hx' ho ho')) (fun id => ?_) entry
  obtain ⟨rfl, _⟩ := of_ofBinary ho
  obtain ⟨rfl, _⟩ := of_ofBinary ho'
  exact h.contains_definitions_eq hx hx' id

end

theorem decorations_of_ofBinary (h : ofBinary b = .ok o) :
    DecorationTable.ofAnnotations (b.instructions.toList.filter Instruction.annotates)
      = .ok o.decorations := by
  obtain ⟨c, hc, h⟩ := ok_of_bind h
  obtain ⟨decorations, hd, h⟩ := ok_of_bind h
  obtain ⟨_, _, h⟩ := ok_of_bind h
  cases h
  rw [(Catalog.sorts_of_ofInstructions hc).annotations] at hd
  exact hd

theorem alike_of_reannotates (h : b.Reannotates b')
    (hc : Consistent (b.instructions.toList.filter Instruction.annotates)) (hx : b.Indexed)
    (hx' : b'.Indexed) (ho : ofBinary b = .ok o) (ho' : ofBinary b' = .ok o') : o.Alike o' := by
  have hentries := DecorationTable.entries_eq_of_same h.annotations hc (decorations_of_ofBinary ho)
    (decorations_of_ofBinary ho')
  obtain ⟨rfl, _⟩ := of_ofBinary ho
  obtain ⟨rfl, _⟩ := of_ofBinary ho'
  refine ⟨h.alike hx hx', fun id => ?_⟩
  rw [decorationsOf, DecorationTable.of_eq, hentries, ← DecorationTable.of_eq, decorationsOf]

end Outline

structure EntryInterface where
  id             : Id
  name           : String
  model          : ExecutionModel
  stageVariables : List StageVariable
  pushConstants  : Option PushConstants

def EntryPoint.interface (e : EntryPoint) : EntryInterface where
  id             := e.id
  name           := e.name
  model          := e.model
  stageVariables := e.stageVariables.map StageVariable.unplaced
  pushConstants  := e.pushConstants.map PushConstants.unplaced

theorem Findings.entryPoint?_agree {f f' : Findings} (h : f.Alike f')
    (hv : Forall₂ Instruction.Alike f.variableInstructions f'.variableInstructions)
    (hr : ∀ id, f.reachable id = f'.reachable id) {i i' : Instruction} (hi : i.Alike i') :
    Agree (fun x y => x.map (·.1.interface) = y.map (·.1.interface)) (f.entryPoint? i)
      (f'.entryPoint? i') := by
  have hw : i.words = i'.words := hi
  unfold entryPoint?
  simp only [hi.word?, Instruction.stringAt, Instruction.stringLengthAt, hw]
  cases (i'.word? 1).bind fun w => ExecutionModel.ofNumber? w.toNat
  case none => exact .pure rfl
  case some model =>
    cases i'.word? 2
    case none => exact .pure rfl
    case some id =>
      simp only [hr id]
      refine .bind (.foldlM hv (fun u u' v v' hu hv => addUsed_agree h hv model _ _ _ _ hu)
        ⟨rfl, rfl⟩) fun u u' hu => ?_
      exact .pure (by simp [EntryPoint.interface, hu.stageVariables, hu.pushConstants])

namespace Module

variable {words words' : List Word} {m m' : Module}

theorem alike_of_reannotates (hm : ofWords words = .ok m) (hm' : ofWords words' = .ok m')
    (h : m.toBinary.Reannotates m'.toBinary)
    (hc : Consistent (m.instructions.toList.filter Instruction.annotates)) :
    m.toFindings.Alike m'.toFindings := by
  have ha := isAnalysed_of_ofWords hm
  have ha' := isAnalysed_of_ofWords hm'
  have ho := Outline.alike_of_reannotates h hc ha.indexed ha'.indexed ha.outline ha'.outline
  refine ⟨ho, StructTable.ofOutline_agree ho ?_ _ _ (structs_of_ofWords hm)
    (structs_of_ofWords hm')⟩
  rw [(Outline.of_ofBinary ha.outline).right.structs,
    (Outline.of_ofBinary ha'.outline).right.structs]
  exact h.alike_filter rfl

theorem interfaces_of_reannotates (hm : ofWords words = .ok m) (hm' : ofWords words' = .ok m')
    (h : m.toBinary.Reannotates m'.toBinary)
    (hc : Consistent (m.instructions.toList.filter Instruction.annotates)) :
    m.entryPoints.map EntryPoint.interface = m'.entryPoints.map EntryPoint.interface := by
  have ha := isAnalysed_of_ofWords hm
  have ha' := isAnalysed_of_ofWords hm'
  obtain ⟨entries, he, hentries⟩ := ha.entries
  obtain ⟨entries', he', hentries'⟩ := ha'.entries
  rw [hentries, hentries', map_map, map_map]
  have hs := (Outline.of_ofBinary ha.outline).right
  have hs' := (Outline.of_ofBinary ha'.outline).right
  have hv : Forall₂ Instruction.Alike m.variableInstructions m'.variableInstructions := by
    rw [hs.globals, hs'.globals]
    exact h.alike_filter rfl
  refine Agree.filterMapM (r := Instruction.Alike) ?_ (fun i i' hi => ?_) _ _ he he'
  case refine_1 =>
    rw [hs.entries, hs'.entries]
    exact h.alike_filter rfl
  case refine_2 =>
    refine Findings.entryPoint?_agree (alike_of_reannotates hm hm' h hc) hv (fun id => ?_) hi
    exact Outline.reachable_eq_of_reannotates h ha.indexed ha'.indexed ha.outline ha'.outline id

-- The order of annotations, and how often they are repeated, makes no difference to the
-- decorations. Hence it makes none to structs, nor to where the inputs and outputs of entry points
-- are placed.
theorem placed_alike_of_same_annotations {is is' : List Instruction} (hf : ∀ i ∈ is, i.Framed)
    (h : SameAnnotations is is') (hc : Consistent is) :
    (∃ t t', DecorationTable.ofAnnotations is = .ok t ∧ DecorationTable.ofAnnotations is' = .ok t'
      ∧ ∀ id : Id, t[id]? = t'[id]?)
    ∧ ∀ words words' m m', ofWords words = .ok m → ofWords words' = .ok m' →
      m.annotations = is → m'.annotations = is' →
      (m.instructions.toList.filter (!·.annotates)).map Instruction.words
        = (m'.instructions.toList.filter (!·.annotates)).map Instruction.words →
      (∀ id : Id, (m.structs[id]?).map StructInfo.unplaced
        = (m'.structs[id]?).map StructInfo.unplaced)
        ∧ m.entryPoints.map EntryPoint.interface = m'.entryPoints.map EntryPoint.interface := by
  constructor
  case left =>
    have hf' : ∀ i ∈ is', i.Framed := fun i' hi' => by
      obtain ⟨i, hi, hw⟩ := h.symm.exists_mem hi'
      exact (hf i hi).of_alike hw
    obtain ⟨t, ht⟩ := DecorationTable.ofAnnotations_succeeds hf
    obtain ⟨t', ht'⟩ := DecorationTable.ofAnnotations_succeeds hf'
    exact ⟨t, t', ht, ht', congrFun (DecorationTable.entries_eq_of_same h hc ht ht')⟩
  case right =>
    rintro words words' m m' hm hm' rfl rfl hothers
    have hs := (Outline.of_ofBinary (isAnalysed_of_ofWords hm).outline).right.annotations
    have hs' := (Outline.of_ofBinary (isAnalysed_of_ofWords hm').outline).right.annotations
    rw [hs] at h hc
    rw [hs'] at h
    exact ⟨(alike_of_reannotates hm hm' ⟨h, hothers⟩ hc).structs,
      interfaces_of_reannotates hm hm' ⟨h, hothers⟩ hc⟩

-- A struct whose second member gets its offset through a group, and an input. The group is copied
-- before anything is said about it.
def groupedOffset : List Word :=
  [0x07230203, 0x00010500, 0, 11, 0, 0x6000f, 4, 7, 0x6e69616d, 0, 6,
   0x4004b, 9, 4, 1, 0x40047, 9, 35, 16, 0x50048, 4, 0, 35, 0, 0x30047, 4, 2, 0x40047, 6, 30, 1,
   0x20049, 9,
   0x20013, 1, 0x30016, 2, 32, 0x40017, 3, 2, 4, 0x4001e, 4, 2, 3, 0x40020, 5, 1, 3, 0x4003b, 5, 6,
   1, 0x30021, 8, 1,
   0x50036, 1, 7, 0, 8, 0x200f8, 10, 0x100fd, 0x10038]

-- The same with its annotations the other way round, and one of them twice.
def groupedOffsetReversed : List Word :=
  [0x07230203, 0x00010500, 0, 11, 0, 0x6000f, 4, 7, 0x6e69616d, 0, 6, 0x20049, 9,
   0x40047, 6, 30, 1, 0x30047, 4, 2, 0x50048, 4, 0, 35, 0, 0x40047, 9, 35, 16, 0x4004b, 9, 4, 1,
   0x4004b, 9, 4, 1,
   0x20013, 1, 0x30016, 2, 32, 0x40017, 3, 2, 4, 0x4001e, 4, 2, 3, 0x40020, 5, 1, 3, 0x4003b, 5, 6,
   1, 0x30021, 8, 1,
   0x50036, 1, 7, 0, 8, 0x200f8, 10, 0x100fd, 0x10038]

theorem placed_alike_groupedOffset :
    ∃ m m', ofWords groupedOffset = .ok m ∧ ofWords groupedOffsetReversed = .ok m'
      ∧ (m.structs[(4 : Id)]?).map (·.range) = some ⟨0, 32⟩
      ∧ (∃ t t', DecorationTable.ofAnnotations m.annotations = .ok t
        ∧ DecorationTable.ofAnnotations m'.annotations = .ok t'
        ∧ ∀ id : Id, t[id]? = t'[id]?)
      ∧ (∀ id : Id, (m.structs[id]?).map StructInfo.unplaced
        = (m'.structs[id]?).map StructInfo.unplaced)
      ∧ m.entryPoints.map EntryPoint.interface = m'.entryPoints.map EntryPoint.interface := by
  obtain ⟨⟨m, m'⟩, hread, hrange, hs, hc, ho⟩ : ∃ x : Module × Module,
      (do return (← ofWords groupedOffset, ← ofWords groupedOffsetReversed)) = .ok x
      ∧ (x.1.structs[(4 : Id)]?).map (·.range) = some ⟨0, 32⟩
      ∧ SameAnnotations x.1.annotations x.2.annotations
      ∧ Consistent x.1.annotations
      ∧ (x.1.instructions.toList.filter (!·.annotates)).map Instruction.words
        = (x.2.instructions.toList.filter (!·.annotates)).map Instruction.words :=
    exists_ok_of_decide (by decide +kernel)
  obtain ⟨_, hm, hread⟩ := ok_of_bind hread
  obtain ⟨_, hm', hread⟩ := ok_of_bind hread
  cases hread
  have ha := isAnalysed_of_ofWords hm
  have hf : ∀ i ∈ m.annotations, i.Framed := fun i hi => by
    rw [(Outline.of_ofBinary ha.outline).right.annotations] at hi
    exact ha.valid.framed i (mem_of_mem_filter hi)
  obtain ⟨ht, hplaced⟩ := placed_alike_of_same_annotations hf hs hc
  exact ⟨m, m', hm, hm', hrange, ht, hplaced _ _ m m' hm hm' rfl rfl ho⟩

end Module
end Shader
