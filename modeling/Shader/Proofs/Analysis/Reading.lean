import Shader.Module
import Shader.Proofs.Stream.Framing

namespace Shader

open List

def Succeeds {α : Type} (c : Checked α) : Prop :=
  ∃ a, c = .ok a

namespace Succeeds

variable {α β γ : Type} {c : Checked α} {f : α → Checked β} {l : List α}

theorem pure (a : α) : Succeeds (Pure.pure a : Checked α) :=
  ⟨a, rfl⟩

theorem bind (h : Succeeds c) (hf : ∀ a, c = .ok a → Succeeds (f a)) : Succeeds (c >>= f) := by
  obtain ⟨a, ha⟩ := h
  rw [ha]
  exact hf a ha

theorem of_bind (h : Succeeds (c >>= f)) : ∃ a, c = .ok a ∧ Succeeds (f a) :=
  have ⟨b, hb⟩ := h
  have ⟨a, ha, hf⟩ := ok_of_bind hb
  ⟨a, ha, b, hf⟩

theorem bind_of_ok {a : α} (h : c = .ok a) : Succeeds (c >>= f) ↔ Succeeds (f a) := by
  rw [h]
  rfl

theorem bind_iff (hf : ∀ a, Succeeds (f a)) : Succeeds (c >>= f) ↔ Succeeds c :=
  ⟨fun h => have ⟨a, ha, _⟩ := h.of_bind; ⟨a, ha⟩, fun h => h.bind fun a _ => hf a⟩

section

variable {p : Prop} [Decidable p] {c' : Checked α}

theorem ite_bind (h : p → Succeeds c) (h' : ¬p → Succeeds c') (hf : ∀ a, Succeeds (f a)) :
    Succeeds (if p then c >>= f else c' >>= f) := by
  split
  case isTrue hp => exact (h hp).bind fun a _ => hf a
  case isFalse hp => exact (h' hp).bind fun a _ => hf a

theorem ite_bind_pure {g : α → β} {b : β} {k : β → Checked γ} (h : p → Succeeds c)
    (hk : ∀ b, Succeeds (k b)) :
    Succeeds (if p then c >>= fun a => Pure.pure (g a) >>= k else Pure.pure b >>= k) := by
  split
  case isTrue hp => exact (h hp).bind fun a _ => hk (g a)
  case isFalse => exact hk b

theorem of_ite_bind (h : Succeeds (if p then c >>= f else c' >>= f)) : ∃ a, Succeeds (f a) := by
  split at h <;> exact have ⟨a, _, h⟩ := h.of_bind; ⟨a, h⟩

end

theorem map {g : α → β} (h : Succeeds c) : Succeeds (g <$> c) := by
  obtain ⟨a, ha⟩ := h
  exact ⟨g a, by rw [ha]; rfl⟩

theorem mapM_iff : Succeeds (l.mapM f) ↔ ∀ a ∈ l, Succeeds (f a) := by
  induction l
  case nil => simp [Succeeds, Pure.pure, Except.pure]
  case cons a l hi =>
    rw [mapM_cons, forall_mem_cons, ← hi]
    constructor
    case mp =>
      intro h
      have ⟨b, hb, h⟩ := h.of_bind
      have ⟨bs, hbs, _⟩ := h.of_bind
      exact ⟨⟨b, hb⟩, bs, hbs⟩
    case mpr => exact fun ⟨ha, hl⟩ => ha.bind fun _ _ => hl.bind fun _ _ => .pure _

theorem filterMapM_iff {f : α → Checked (Option β)} :
    Succeeds (l.filterMapM f) ↔ ∀ a ∈ l, Succeeds (f a) := by
  induction l
  case nil => simp [Succeeds, Pure.pure, Except.pure]
  case cons a l hi =>
    rw [filterMapM_cons, forall_mem_cons, ← hi]
    constructor
    case mp =>
      intro h
      have ⟨b, hb, h⟩ := h.of_bind
      refine ⟨⟨b, hb⟩, ?_⟩
      cases b
      case none => exact h
      case some =>
        have ⟨bs, hbs, _⟩ := h.of_bind
        exact ⟨bs, hbs⟩
    case mpr =>
      rintro ⟨ha, hl⟩
      refine ha.bind fun b _ => ?_
      cases b
      case none => exact hl
      case some => exact hl.bind fun _ _ => .pure _

theorem filterM {p : α → Checked Bool} (h : ∀ a ∈ l, Succeeds (p a)) : Succeeds (l.filterM p) := by
  have haux (acc : List α) : Succeeds (filterAuxM p l acc) := by
    induction l generalizing acc
    case nil => exact .pure _
    case cons a l hi =>
      rw [forall_mem_cons] at h
      exact h.left.bind fun _ _ => hi h.right _
  exact (haux []).bind fun _ _ => .pure _

theorem foldlM {g : β → α → Checked β} (h : ∀ b, ∀ a ∈ l, Succeeds (g b a)) (b : β) :
    Succeeds (l.foldlM g b) := by
  induction l generalizing b
  case nil => exact .pure b
  case cons a l hi =>
    rw [foldlM_cons]
    exact (h b a mem_cons_self).bind fun b' _ => hi (fun b a ha => h b a (mem_cons_of_mem _ ha)) b'

theorem of_foldlM {g : β → α → Checked β} {b : β} (h : Succeeds (l.foldlM g b)) {a : α}
    (ha : a ∈ l) :
    ∃ b, Succeeds (g b a) := by
  induction l generalizing b
  case nil => simp at ha
  case cons c l hi =>
    rw [foldlM_cons] at h
    obtain ⟨b', hb, h⟩ := h.of_bind
    obtain rfl | ha := mem_cons.mp ha
    · exact ⟨b, b', hb⟩
    · exact hi h ha

theorem foldlM_iff {g : β → α → Checked β} {q : α → Prop} (h : ∀ b, ∀ a ∈ l, Succeeds (g b a) ↔ q a)
    (b : β) :
    Succeeds (l.foldlM g b) ↔ ∀ a ∈ l, q a := by
  constructor
  case mp =>
    intro hl a ha
    obtain ⟨b', hb⟩ := hl.of_foldlM ha
    exact (h b' a ha).mp hb
  case mpr => exact fun hq => .foldlM (fun b' a ha => (h b' a ha).mpr (hq a ha)) b

theorem forM {g : α → Checked PUnit} (h : ∀ a ∈ l, Succeeds (g a)) : Succeeds (l.forM g) := by
  induction l
  case nil => exact .pure _
  case cons a l hi =>
    rw [forall_mem_cons] at h
    exact h.left.bind fun _ _ => hi h.right

end Succeeds

-- How many words are read of the accessing instructions whose length the reader does not check.
def Op.accessLength : Op → Nat
  | .cooperativeMatrixStoreKHR | .cooperativeMatrixStoreNV => 2
  | .copyMemorySized => 3
  | .cooperativeMatrixLoadKHR | .cooperativeMatrixLoadNV => 4
  | _ => 0

namespace Instruction

variable {i : Instruction} {op : Op}

-- An instruction with all the words that are read of it, whatever module it is in.
structure Readable (i : Instruction) : Prop where
  capability : i.op? = some .capability → 2 ≤ i.length
  access     : ∀ op ∈ i.op?, op.accessLength ≤ i.length

theorem word_iff {k : Nat} : Succeeds (i.word k) ↔ k < i.length := by
  simp only [Succeeds, word, word?, Instruction.length]
  constructor
  case mp =>
    rintro ⟨w, hw⟩
    split at hw
    case h_1 hk => exact (List.getElem?_eq_some_iff.mp hk).1
    case h_2 => cases hw
  case mpr =>
    intro hk
    exact ⟨i.words.get ⟨k, hk⟩, by rw [getElem?_eq_getElem hk]; rfl⟩

theorem word?_of_word {k : Nat} {w : Word} (h : i.word k = .ok w) : i.word? k = some w := by
  unfold word at h
  split at h
  case h_1 hk =>
    cases h
    exact hk
  case h_2 => cases h

theorem Framed.word_succeeds {k : Nat} (h : i.Framed) (ho : i.op? = some op)
    (hk : k < op.leastLength) :
    Succeeds (i.word k) := by
  have hl := h.least
  rw [ho, Option.elim_some] at hl
  exact word_iff.mpr (by omega)

theorem op?_of_is (h : i.is op) : i.op? = some op := by
  simpa [Instruction.is] using h

theorem Framed.storageClass?_succeeds (h : i.Framed) (ho : i.op? ≠ some .typeForwardPointer) :
    Succeeds i.storageClass? := by
  unfold Instruction.storageClass?
  split
  case h_1 ho => exact (h.word_succeeds ho (by decide)).bind fun _ _ => .pure _
  case h_2 ho => exact (h.word_succeeds ho (by decide)).bind fun _ _ => .pure _
  case h_3 hf => exact absurd hf ho
  case h_4 => exact .pure _

theorem Framed.constantValue?_succeeds (h : i.Framed) : Succeeds i.constantValue? := by
  unfold Instruction.constantValue?
  split
  case h_1 ho => exact (h.word_succeeds ho (by decide)).bind fun _ _ => .pure _
  case h_2 ho => exact (h.word_succeeds ho (by decide)).bind fun _ _ => .pure _
  case h_3 => exact .pure _

theorem Framed.bitWidth?_succeeds (h : i.Framed) : Succeeds i.bitWidth? := by
  unfold Instruction.bitWidth?
  split
  case h_1 ho => exact (h.word_succeeds ho (by decide)).bind fun _ _ => .pure _
  case h_2 ho => exact (h.word_succeeds ho (by decide)).bind fun _ _ => .pure _
  all_goals exact .pure _

theorem Framed.decoration?_succeeds (h : i.Framed) : Succeeds i.decoration? := by
  unfold Instruction.decoration?
  split
  case h_6 => exact .pure _
  all_goals exact (h.word_succeeds ‹_› (by decide)).bind fun _ _ => .pure _

end Instruction
namespace Binary

def Framed (b : Binary) : Prop :=
  ∀ i ∈ b.instructions.toList, i.Framed

variable {b : Binary}

theorem mem_of_definition? {id : Id} {i : Instruction} (h : b.definition? id = some i) :
    i ∈ b.instructions.toList := by
  obtain ⟨k, _, hk⟩ := Option.bind_eq_some_iff.mp h
  exact Array.mem_toList_iff.mpr (Array.mem_of_getElem? hk)

theorem mem_of_typeOf? {id : Id} {i : Instruction} (h : b.typeOf? id = some i) :
    i ∈ b.instructions.toList := by
  obtain ⟨_, _, h⟩ := Option.bind_eq_some_iff.mp h
  obtain ⟨_, _, h⟩ := Option.bind_eq_some_iff.mp h
  exact mem_of_definition? h

variable (hb : b.Framed)

include hb

theorem constant?_succeeds (id : Id) : Succeeds (b.constant? id) := by
  unfold constant?
  split
  case h_1 => exact .pure _
  case h_2 i hi =>
    have hf := hb i (mem_of_definition? hi)
    split
    case h_1 | h_2 => exact hf.constantValue?_succeeds
    all_goals exact .pure _

theorem pointee?_succeeds (id : Id) : Succeeds (b.pointee? id) := by
  unfold pointee?
  split
  case h_2 => exact .pure _
  case h_1 type ht =>
    split
    case isFalse => exact .pure _
    case isTrue his =>
      exact .map <| (hb type (mem_of_typeOf? ht)).word_succeeds (Instruction.op?_of_is his)
        (by decide)

theorem arrayLength_succeeds {array : Instruction} (ha : array ∈ b.instructions.toList)
    (ho : array.op? = some .typeArray) : Succeeds (b.arrayLength array) := by
  have hf := hb array ha
  refine (hf.word_succeeds ho (by decide)).bind fun constant _ =>
    (hf.word_succeeds ho (by decide)).bind fun _ _ => ?_
  exact (constant?_succeeds hb constant).bind fun _ _ => .pure _

theorem widthOf?_succeeds (id : Id) : Succeeds (b.widthOf? id) := by
  unfold widthOf?
  split
  case h_1 i hi => exact (hb i (mem_of_definition? hi)).bitWidth?_succeeds
  case h_2 => exact .pure _

theorem shapeTo_succeeds (depth : Nat) (id : Id) : Succeeds (b.shapeTo depth id) := by
  induction depth generalizing id
  case zero => exact .pure _
  case succ depth hi =>
    unfold shapeTo
    split
    case h_1 => exact .pure _
    case h_2 i hd =>
      have hmem := mem_of_definition? hd
      have hf := hb i hmem
      split
      case h_1 ho | h_2 ho => exact (hf.word_succeeds ho (by decide)).bind fun _ _ => .pure _
      case h_3 => exact .pure _
      case h_4 ho =>
        refine (hf.word_succeeds ho (by decide)).bind fun component _ =>
          (hf.word_succeeds ho (by decide)).bind fun _ _ => ?_
        exact (widthOf?_succeeds hb component).bind fun _ _ => (hi component).bind
          fun _ _ => .pure _
      case h_5 ho =>
        refine (hf.word_succeeds ho (by decide)).bind fun _ _ =>
          (hf.word_succeeds ho (by decide)).bind fun column _ => ?_
        exact (hi column).bind fun _ _ => .pure _
      case h_6 ho =>
        refine (arrayLength_succeeds hb hmem ho).bind fun _ _ =>
          (hf.word_succeeds ho (by decide)).bind fun element _ => ?_
        exact (hi element).bind fun _ _ => .pure _
      case h_7 ho =>
        exact (hf.word_succeeds ho (by decide)).bind fun element _ => (hi element).bind
          fun _ _ => .pure _
      case h_8 => exact (Succeeds.mapM_iff.mpr fun member _ => hi member).bind fun _ _ => .pure _
      case h_9 ho =>
        refine (hf.storageClass?_succeeds (by simp [ho])).bind fun _ _ => ?_
        split
        case isTrue => exact .pure _
        case isFalse =>
          exact (hf.word_succeeds ho (by decide)).bind fun target _ => (hi target).bind
            fun _ _ => .pure _
      case h_10 => exact .pure _

theorem shape_succeeds (id : Id) : Succeeds (b.shape id) :=
  shapeTo_succeeds hb typeDepth id

theorem numericTypeTo_succeeds (depth : Nat) (id : Id) : Succeeds (b.numericTypeTo depth id) := by
  induction depth generalizing id
  case zero => exact .pure _
  case succ depth hi =>
    unfold numericTypeTo
    split
    case h_1 => exact .pure _
    case h_2 i hd =>
      have hf := hb i (mem_of_definition? hd)
      split
      case h_1 ho => exact (hf.word_succeeds ho (by decide)).bind fun _ _ => .pure _
      case h_2 => exact .pure _
      case h_10 => exact .pure _
      all_goals exact (hf.word_succeeds ‹_› (by decide)).bind fun part _ => hi part

theorem numericType_succeeds (id : Id) : Succeeds (b.numericType id) :=
  numericTypeTo_succeeds hb typeDepth id

omit hb in
theorem isArray_iff {i : Instruction} :
    i.isArray ↔ i.op? = some .typeArray ∨ i.op? = some .typeRuntimeArray := by
  unfold Instruction.isArray
  split <;> simp_all

theorem word_of_isArray {i : Instruction} (hi : i ∈ b.instructions.toList) (ha : i.isArray) :
    Succeeds (i.word 2) := by
  cases isArray_iff.mp ha
  case inl ho => exact (hb i hi).word_succeeds ho (by decide)
  case inr ho => exact (hb i hi).word_succeeds ho (by decide)

theorem stripArraysTo_succeeds (depth : Nat) {type : Instruction}
    (ht : type ∈ b.instructions.toList) :
    Succeeds (b.stripArraysTo depth type) := by
  induction depth generalizing type
  case zero => exact .pure _
  case succ depth hi =>
    unfold stripArraysTo
    split
    case isFalse => exact .pure _
    case isTrue ha =>
      refine (word_of_isArray hb ht ha).bind fun element _ => ?_
      split
      case h_1 e he => exact hi (mem_of_definition? he)
      case h_2 => exact .pure _

theorem stripArrays?_succeeds {type : Instruction} (ht : type ∈ b.instructions.toList) :
    Succeeds (b.stripArrays? type) :=
  stripArraysTo_succeeds hb typeDepth ht

theorem baseType?_succeeds (id : Id) : Succeeds (b.baseType? id) := by
  unfold baseType?
  split
  case h_2 => exact .pure _
  case h_1 type ht =>
    have hmem := mem_of_typeOf? ht
    split
    case isFalse => exact stripArrays?_succeeds hb hmem
    case isTrue his =>
      refine ((hb type hmem).word_succeeds (Instruction.op?_of_is his) (by decide)).bind
        fun target _ => ?_
      split
      case h_1 t hd => exact stripArrays?_succeeds hb (mem_of_definition? hd)
      case h_2 => exact .pure _

omit hb in
theorem mem_of_stripArraysTo {depth : Nat} {type base : Instruction}
    (ht : type ∈ b.instructions.toList) (h : b.stripArraysTo depth type = .ok (some base)) :
    base ∈ b.instructions.toList := by
  induction depth generalizing type
  case zero => cases h
  case succ depth hi =>
    unfold stripArraysTo at h
    split at h
    case isFalse =>
      cases h
      exact ht
    case isTrue =>
      obtain ⟨element, _, h⟩ := ok_of_bind h
      split at h
      case h_1 e he => exact hi (mem_of_definition? he) h
      case h_2 => cases h

omit hb in
theorem mem_of_baseType? {id : Id} {base : Instruction} (h : b.baseType? id = .ok (some base)) :
    base ∈ b.instructions.toList := by
  unfold baseType? at h
  split at h
  case h_2 => cases h
  case h_1 type ht =>
    split at h
    case isFalse => exact mem_of_stripArraysTo (mem_of_typeOf? ht) h
    case isTrue =>
      obtain ⟨target, _, h⟩ := ok_of_bind h
      split at h
      case h_1 t hd => exact mem_of_stripArraysTo (mem_of_definition? hd) h
      case h_2 => cases h

theorem scalarSlots_succeeds (type : Id) (count location component : Nat) :
    Succeeds (b.scalarSlots type count location component) := by
  refine (widthOf?_succeeds hb type).bind fun _ _ => (numericType_succeeds hb type).bind
    fun _ _ => ?_
  split <;> exact .pure _

theorem placeElements_succeeds {place : Nat → Checked Placement}
    (hp : ∀ location, Succeeds (place location)) (type : Id) (count location : Nat) :
    Succeeds (b.placeElements place type count location) := by
  refine (shape_succeeds hb type).bind fun shape _ => ?_
  dsimp only
  split
  case isTrue => exact .pure _
  case isFalse => exact (Succeeds.mapM_iff.mpr fun _ _ => hp _).bind fun _ _ => .pure _

theorem placeTo_succeeds (depth : Nat) (type : Id) (location component : Nat) :
    Succeeds (b.placeTo depth type location component) := by
  induction depth generalizing type location component
  case zero => exact .pure _
  case succ depth hi =>
    unfold placeTo
    split
    case h_1 => exact .pure _
    case h_2 i hd =>
      have hmem := mem_of_definition? hd
      have hf := hb i hmem
      split
      case isTrue => exact .pure _
      case isFalse =>
        split
        case h_1 ho =>
          refine (arrayLength_succeeds hb hmem ho).bind fun _ _ =>
            (hf.word_succeeds ho (by decide)).bind fun element _ => ?_
          exact (placeElements_succeeds hb (fun _ => hi _ _ _) _ _ _).bind fun _ _ => .pure _
        case h_2 ho =>
          refine (hf.word_succeeds ho (by decide)).bind fun column _ =>
            (hf.word_succeeds ho (by decide)).bind fun _ _ => ?_
          exact placeElements_succeeds hb (fun _ => hi _ _ _) _ _ _
        case h_3 => exact .foldlM (fun _ _ _ => (hi _ _ _).bind fun _ _ => .pure _) _
        case h_4 ho =>
          refine (hf.word_succeeds ho (by decide)).bind fun _ _ =>
            (hf.word_succeeds ho (by decide)).bind fun _ _ => ?_
          refine (scalarSlots_succeeds hb _ _ _ _).bind fun _ _ => ?_
          exact (shape_succeeds hb type).bind fun _ _ => .pure _
        case h_8 => exact .pure _
        all_goals exact (scalarSlots_succeeds hb _ _ _ _).bind fun _ _ => .pure _

theorem place_succeeds (type : Id) (location component : Nat) :
    Succeeds (b.place type location component) :=
  placeTo_succeeds hb typeDepth type location component

end Binary
theorem FunctionScan.step_succeeds {i : Instruction} (hf : i.Framed) (s : FunctionScan) :
    Succeeds (s.step i) := by
  unfold step
  split
  case h_1 ho => exact (hf.word_succeeds ho (by decide)).bind fun _ _ => .pure _
  case h_2 ho _ => exact (hf.word_succeeds ho (by decide)).bind fun _ _ => .pure _
  all_goals exact .pure _

namespace Catalog

variable {is : List Instruction} (hf : ∀ i ∈ is, i.Framed)

include hf

theorem texts_succeeds {op : Op} (ho : 1 < op.leastLength) : Succeeds (texts op is) := by
  refine .foldlM (fun t i hi => ?_) ∅
  obtain ⟨hi, his⟩ := mem_filter.mp hi
  exact ((hf i hi).word_succeeds (Instruction.op?_of_is his) ho).bind fun _ _ => .pure _

omit hf in
theorem mem_having {p : Op → Bool} {i : Instruction} (h : i ∈ is.filter (·.op?.any p)) :
    i ∈ is ∧ ∃ op, i.op? = some op ∧ p op := by
  obtain ⟨hi, hp⟩ := mem_filter.mp h
  cases ho : i.op?
  case none => simp [ho] at hp
  case some op => exact ⟨hi, op, rfl, by simpa [ho] using hp⟩

theorem ofInstructions_succeeds (hc : ∀ i ∈ is, i.op? = some .capability → 2 ≤ i.length) :
    Succeeds (ofInstructions is) := by
  refine (Succeeds.foldlM (fun s i hi => FunctionScan.step_succeeds (hf i hi) s) {}).bind
    fun scan _ => ?_
  refine (Succeeds.mapM_iff.mpr fun i hi => ?_).bind fun _ _ => ?_
  · obtain ⟨hi, op, ho, hop⟩ := mem_having hi
    obtain rfl : op = .capability := by simpa using hop
    exact Instruction.word_iff.mpr (hc i hi ho)
  refine (texts_succeeds hf (by decide)).bind fun _ _ => (texts_succeeds hf (by decide)).bind
    fun _ _ => ?_
  refine (texts_succeeds hf (by decide)).bind fun _ _ => (Succeeds.filterM fun i hi => ?_).bind
    fun _ _ => ?_
  · exact (hf i (mem_having hi).left).decoration?_succeeds.bind fun _ _ => .pure _
  refine (Succeeds.foldlM (fun t i hi => ?_) ∅).bind fun _ _ => .pure _
  obtain ⟨hi, op, ho, hop⟩ := mem_having hi
  obtain rfl : op = .functionCall := by simpa using hop
  exact ((hf i hi).word_succeeds ho (by decide)).bind fun _ _ => .pure _

end Catalog

theorem DecorationTable.ofAnnotations_succeeds {is : List Instruction} (hf : ∀ i ∈ is, i.Framed) :
    Succeeds (ofAnnotations is) := by
  refine (Succeeds.foldlM (fun t i hi => ?_) ∅).bind fun _ _ => .foldlM (fun t i hi => ?_) _
  · refine (hf i hi).decoration?_succeeds.bind fun _ _ => ?_
    split
    case h_1 ho _ | h_2 ho _ =>
      exact ((hf i hi).word_succeeds ho (by decide)).bind fun _ _ => .pure _
    case h_3 ho _ =>
      refine ((hf i hi).word_succeeds ho (by decide)).bind fun _ _ => ?_
      exact ((hf i hi).word_succeeds ho (by decide)).bind fun _ _ => .pure _
    case h_4 => exact .pure _
  · unfold addGroup
    split
    case h_1 ho | h_2 ho =>
      refine ((hf i hi).word_succeeds ho (by decide)).bind fun _ _ => ?_
      split <;> exact .pure _
    case h_3 => exact .pure _

theorem ExecutionModeTable.ofAnnotations_succeeds {is : List Instruction}
    (hf : ∀ i ∈ is, i.Framed) :
    Succeeds (ofAnnotations is) := by
  refine .foldlM (fun t i hi => ?_) ∅
  unfold addMode
  split
  case h_1 ho | h_2 ho =>
    refine ((hf i hi).word_succeeds ho (by decide)).bind fun _ _ =>
      ((hf i hi).word_succeeds ho (by decide)).bind fun _ _ => ?_
    split <;> exact .pure _
  case h_3 => exact .pure _

namespace Catalog

structure Sorts (is : List Instruction) (c : Catalog) : Prop where
  entries      : c.entryPointInstructions = is.filter (·.op?.any (· == .entryPoint))
  annotations  : c.annotations            = is.filter (·.op?.any Op.isAnnotation)
  globals      : c.variableInstructions   = is.filter (·.op?.any (· == .variable))
  structs      : c.structInstructions     = is.filter (·.op?.any (· == .typeStruct))
  images       : c.imageInstructions      = is.filter (·.op?.any (·.imagePosition?.isSome))
  capabilities : ∀ i ∈ is, i.op? = some .capability → Succeeds (i.word 1)
  functions    : ∃ s, is.foldlM FunctionScan.step {} = .ok s ∧ c.functions = s.functions
  arguments    : ∃ s, is.foldlM FunctionScan.step {} = .ok s
    ∧ (is.filter (·.op?.any (· == .functionCall))).foldlM (bindArguments s.parameters) ∅
    = .ok c.arguments

theorem sorts_of_ofInstructions {is : List Instruction} {c : Catalog}
    (h : ofInstructions is = .ok c) : Sorts is c := by
  obtain ⟨s, hs, h⟩ := ok_of_bind h
  obtain ⟨ws, hws, h⟩ := ok_of_bind h
  obtain ⟨_, _, h⟩ := ok_of_bind h
  obtain ⟨_, _, h⟩ := ok_of_bind h
  obtain ⟨_, _, h⟩ := ok_of_bind h
  obtain ⟨_, _, h⟩ := ok_of_bind h
  obtain ⟨arguments, ha, h⟩ := ok_of_bind h
  cases h
  refine ⟨rfl, rfl, rfl, rfl, rfl, fun i hi ho => ?_, ⟨s, hs, rfl⟩, s, hs, ha⟩
  exact Succeeds.mapM_iff.mp ⟨ws, hws⟩ i (mem_filter.mpr ⟨hi, by simp [ho]⟩)

end Catalog

namespace Outline

theorem of_ofBinary {b : Binary} {o : Outline} (h : ofBinary b = .ok o) :
    o.toBinary = b ∧ Catalog.Sorts b.instructions.toList o.toCatalog := by
  obtain ⟨c, hc, h⟩ := ok_of_bind h
  obtain ⟨_, _, h⟩ := ok_of_bind h
  obtain ⟨_, _, h⟩ := ok_of_bind h
  cases h
  exact ⟨rfl, Catalog.sorts_of_ofInstructions hc⟩

theorem ofBinary_succeeds {b : Binary} (hb : b.Framed)
    (hc : ∀ i ∈ b.instructions.toList, i.op? = some .capability → 2 ≤ i.length) :
    Succeeds (ofBinary b) := by
  refine (Catalog.ofInstructions_succeeds hb hc).bind fun c h => ?_
  have hannotations : ∀ i ∈ c.annotations, i.Framed := fun i hi => by
    rw [(Catalog.sorts_of_ofInstructions h).annotations] at hi
    exact hb i (mem_of_mem_filter hi)
  exact (DecorationTable.ofAnnotations_succeeds hannotations).bind fun _ _ =>
    (ExecutionModeTable.ofAnnotations_succeeds hannotations).bind fun _ _ => .pure _

end Outline
end Shader
