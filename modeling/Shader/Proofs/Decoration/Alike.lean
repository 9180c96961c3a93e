import Shader.Proofs.Analysis.Analysed

namespace Shader

open List

-- Two computations that give related results, if both of them give one.
def Agree {α β : Type} (r : α → β → Prop) (c : Checked α) (c' : Checked β) : Prop :=
  ∀ a b, c = .ok a → c' = .ok b → r a b

namespace Agree

variable {α β γ δ : Type} {r : α → β → Prop} {s : γ → δ → Prop} {c : Checked α} {c' : Checked β}

theorem pure {a : α} {b : β} (h : r a b) : Agree r (pure a) (pure b) := by
  rintro _ _ ⟨⟩ ⟨⟩
  exact h

theorem bind {f : α → Checked γ} {g : β → Checked δ} (h : Agree r c c')
    (hf : ∀ a b, r a b → Agree s (f a) (g b)) :
    Agree s (c >>= f) (c' >>= g) := by
  intro x y hx hy
  obtain ⟨a, ha, hx⟩ := ok_of_bind hx
  obtain ⟨b, hb, hy⟩ := ok_of_bind hy
  exact hf a b (h a b ha hb) x y hx hy

theorem step {c' : Checked α} {f : α → Checked γ} {g : α → Checked δ} (h : Agree Eq c c')
    (hf : ∀ a, Agree s (f a) (g a)) :
    Agree s (c >>= f) (c' >>= g) :=
  h.bind fun a _ heq => heq ▸ hf a

theorem map {f : α → γ} {g : β → δ} (h : Agree r c c') (hf : ∀ a b, r a b → s (f a) (g b)) :
    Agree s (f <$> c) (g <$> c') := by
  intro x y hx hy
  cases c <;> cases hx
  cases c' <;> cases hy
  exact hf _ _ (h _ _ rfl rfl)

theorem mapM {f : α → Checked γ} {g : β → Checked γ} {l : List α} {l' : List β}
    (hl : Forall₂ r l l') (h : ∀ a b, r a b → Agree Eq (f a) (g b)) :
    Agree Eq (l.mapM f) (l'.mapM g) := by
  induction hl
  case nil => exact .pure rfl
  case cons a b _ _ hab _ hi =>
    rw [mapM_cons, mapM_cons]
    exact .step (h a b hab) fun _ => .step hi fun _ => .pure rfl

theorem filterMapM {ε : Type} {f : α → Checked (Option γ)} {g : β → Checked (Option γ)} {u : γ → ε}
    {l : List α} {l' : List β} (hl : Forall₂ r l l')
    (h : ∀ a b, r a b → Agree (fun x y => x.map u = y.map u) (f a) (g b)) :
    Agree (fun xs ys => xs.map u = ys.map u) (l.filterMapM f) (l'.filterMapM g) := by
  induction hl
  case nil => exact .pure rfl
  case cons a b _ _ hab _ hi =>
    rw [filterMapM_cons, filterMapM_cons]
    refine .bind (h a b hab) fun x y hxy => ?_
    cases x <;> cases y <;> simp only [Option.map_none, Option.map_some, reduceCtorEq,
      Option.some.injEq] at hxy
    case none.none => exact hi
    case some.some => exact .bind hi fun _ _ hl => .pure (by rw [map_cons, map_cons, hxy, hl])

theorem foldlM {l : List γ} {l' : List δ} {f : α → γ → Checked α} {g : β → δ → Checked β}
    (hl : Forall₂ s l l') (h : ∀ a b x y, r a b → s x y → Agree r (f a x) (g b y)) {a : α} {b : β}
    (hab : r a b) :
    Agree r (l.foldlM f a) (l'.foldlM g b) := by
  induction hl generalizing a b
  case nil => exact .pure hab
  case cons x y _ _ hxy _ hi =>
    rw [foldlM_cons, foldlM_cons]
    exact .bind (h a b x y hab hxy) fun _ _ => hi

end Agree

namespace Instruction

def Alike (i i' : Instruction) : Prop :=
  i.words = i'.words

namespace Alike

variable {i i' : Instruction} (h : i.Alike i')

include h

theorem op? : i.op? = i'.op? := by
  rw [Instruction.op?, opcode, h, Instruction.op?, opcode]

theorem word? (k : Nat) : i.word? k = i'.word? k := by
  rw [Instruction.word?, h, Instruction.word?]

theorem outcome : i.outcome = i'.outcome := by
  rw [Instruction.outcome, h.op?, Instruction.outcome]

theorem typeId? : i.typeId? = i'.typeId? := by
  simp only [Instruction.typeId?, h.outcome, h.word?]

theorem resultId? : i.resultId? = i'.resultId? := by
  simp only [Instruction.resultId?, h.outcome, h.word?]

theorem operands : i.operands = i'.operands := by
  rw [Instruction.operands, operandsStart, h, h.outcome, Instruction.operands, operandsStart]

theorem isArray : i.isArray = i'.isArray := by
  rw [Instruction.isArray, h.op?, Instruction.isArray]

theorem is (op : Op) : i.is op = i'.is op := by
  rw [Instruction.is, h.op?, Instruction.is]

theorem word (k : Nat) : Agree Eq (i.word k) (i'.word k) := by
  intro w w' hw hw'
  have hk := h.word? k
  rw [word?_of_word hw, word?_of_word hw'] at hk
  exact Option.some.inj hk

theorem storageClass? : Agree Eq i.storageClass? i'.storageClass? := by
  unfold Instruction.storageClass?
  rw [h.op?]
  split
  case h_4 => exact .pure rfl
  all_goals exact .step (h.word _) fun _ => .pure rfl

theorem constantValue? : Agree Eq i.constantValue? i'.constantValue? := by
  unfold Instruction.constantValue?
  rw [h.op?]
  split
  case h_3 => exact .pure rfl
  all_goals exact .step (h.word _) fun _ => .pure rfl

theorem bitWidth? : Agree Eq i.bitWidth? i'.bitWidth? := by
  unfold Instruction.bitWidth?
  rw [h.op?]
  split
  case h_3 | h_4 => exact .pure rfl
  all_goals exact .step (h.word _) fun _ => .pure rfl

end Alike
end Instruction

namespace Binary

def Alike (b b' : Binary) : Prop :=
  ∀ id, Option.Rel Instruction.Alike (b.definition? id) (b'.definition? id)

namespace Alike

variable {b b' : Binary} (h : b.Alike b')

include h

theorem constant? (id : Id) : Agree Eq (b.constant? id) (b'.constant? id) := by
  have hd := h id
  unfold Binary.constant?
  generalize b.definition? id = d at hd ⊢
  generalize b'.definition? id = d' at hd ⊢
  cases hd
  case none => exact .pure rfl
  case some i i' hi =>
    simp only [hi.op?]
    split
    case h_1 | h_2 => exact hi.constantValue?
    all_goals exact .pure rfl

theorem opOf? (id : Id) : b.opOf? id = b'.opOf? id := by
  have hd := h id
  unfold Binary.opOf?
  generalize b.definition? id = d at hd ⊢
  generalize b'.definition? id = d' at hd ⊢
  cases hd
  case none => rfl
  case some i i' hi => exact hi.op?

theorem typeOf? (id : Id) : Option.Rel Instruction.Alike (b.typeOf? id) (b'.typeOf? id) := by
  have hd := h id
  unfold Binary.typeOf?
  generalize b.definition? id = d at hd ⊢
  generalize b'.definition? id = d' at hd ⊢
  cases hd
  case none => exact .none
  case some i i' hi =>
    simp only [Option.bind_eq_bind, Option.bind_some, hi.typeId?]
    cases i'.typeId?
    case none => exact .none
    case some type => exact h type

theorem pointee? (id : Id) : Agree Eq (b.pointee? id) (b'.pointee? id) := by
  have ht := h.typeOf? id
  unfold Binary.pointee?
  generalize b.typeOf? id = d at ht ⊢
  generalize b'.typeOf? id = d' at ht ⊢
  cases ht
  case none => exact .pure rfl
  case some i i' hi =>
    simp only [hi.is]
    split
    case isTrue => exact .map (hi.word 3) fun _ _ => congrArg some
    case isFalse => exact .pure rfl

theorem arrayLength {i i' : Instruction} (hi : i.Alike i') :
    Agree Eq (b.arrayLength i) (b'.arrayLength i') :=
  .step (hi.word 3) fun constant => .step (hi.word 1) fun _ => .step (h.constant? constant)
    fun _ => .pure rfl

theorem widthOf? (id : Id) : Agree Eq (b.widthOf? id) (b'.widthOf? id) := by
  have hd := h id
  unfold Binary.widthOf?
  generalize b.definition? id = d at hd ⊢
  generalize b'.definition? id = d' at hd ⊢
  cases hd
  case none => exact .pure rfl
  case some i i' hi => exact hi.bitWidth?

theorem shapeTo (depth : Nat) (id : Id) : Agree Eq (b.shapeTo depth id) (b'.shapeTo depth id) := by
  induction depth generalizing id
  case zero => exact .pure rfl
  case succ depth hdepth =>
    have hd := h id
    unfold Binary.shapeTo
    generalize b.definition? id = d at hd ⊢
    generalize b'.definition? id = d' at hd ⊢
    cases hd
    case none => exact .pure rfl
    case some i i' hi =>
      simp only [hi.op?]
      split
      case h_1 | h_2 => exact .step (hi.word 2) fun _ => .pure rfl
      case h_3 | h_10 => exact .pure rfl
      case h_4 =>
        refine .step (hi.word 2) fun component => .step (hi.word 3) fun _ => ?_
        exact .step (h.widthOf? component) fun _ => .step (hdepth component) fun _ => .pure rfl
      case h_5 =>
        exact .step (hi.word 3) fun _ => .step (hi.word 2) fun column => .step (hdepth column)
          fun _ => .pure rfl
      case h_6 =>
        exact .step (h.arrayLength hi) fun _ => .step (hi.word 2) fun element =>
          .step (hdepth element) fun _ => .pure rfl
      case h_7 => exact .step (hi.word 2) fun element => .step (hdepth element) fun _ => .pure rfl
      case h_8 =>
        rw [hi.operands]
        exact .step (.mapM (r := Eq) (forall₂_refl _) fun _ _ heq => heq ▸ hdepth _)
          fun _ => .pure rfl
      case h_9 =>
        refine .step hi.storageClass? fun storageClass => ?_
        split
        case isTrue => exact .pure rfl
        case isFalse =>
          exact .step (hi.word 3) fun target => .step (hdepth target) fun _ => .pure rfl

theorem shape (id : Id) : Agree Eq (b.shape id) (b'.shape id) :=
  h.shapeTo typeDepth id

theorem numericTypeTo (depth : Nat) (id : Id) :
    Agree Eq (b.numericTypeTo depth id) (b'.numericTypeTo depth id) := by
  induction depth generalizing id
  case zero => exact .pure rfl
  case succ depth hdepth =>
    have hd := h id
    unfold Binary.numericTypeTo
    generalize b.definition? id = d at hd ⊢
    generalize b'.definition? id = d' at hd ⊢
    cases hd
    case none => exact .pure rfl
    case some i i' hi =>
      simp only [hi.op?]
      split
      case h_1 => exact .step (hi.word 3) fun _ => .pure rfl
      case h_2 | h_10 => exact .pure rfl
      all_goals exact .step (hi.word _) fun _ => hdepth _

theorem numericType (id : Id) : Agree Eq (b.numericType id) (b'.numericType id) :=
  h.numericTypeTo typeDepth id

theorem stripArraysTo (depth : Nat) {i i' : Instruction} (hi : i.Alike i') :
    Agree (Option.Rel Instruction.Alike) (b.stripArraysTo depth i) (b'.stripArraysTo depth i') := by
  induction depth generalizing i i'
  case zero => exact .pure .none
  case succ depth hdepth =>
    unfold Binary.stripArraysTo
    rw [hi.isArray]
    split
    case isFalse => exact .pure (.some hi)
    case isTrue =>
      refine .step (hi.word 2) fun element => ?_
      have hd := h element
      generalize b.definition? element = d at hd ⊢
      generalize b'.definition? element = d' at hd ⊢
      cases hd
      case none => exact .pure .none
      case some i i' hi => exact hdepth hi

theorem baseType? (id : Id) :
    Agree (Option.Rel Instruction.Alike) (b.baseType? id) (b'.baseType? id) := by
  have ht := h.typeOf? id
  unfold Binary.baseType?
  generalize b.typeOf? id = d at ht ⊢
  generalize b'.typeOf? id = d' at ht ⊢
  cases ht
  case none => exact .pure .none
  case some i i' hi =>
    simp only [hi.is]
    split
    case isFalse => exact h.stripArraysTo typeDepth hi
    case isTrue =>
      refine .step (hi.word 3) fun target => ?_
      have hd := h target
      generalize b.definition? target = d at hd ⊢
      generalize b'.definition? target = d' at hd ⊢
      cases hd
      case none => exact .pure .none
      case some i i' hi => exact h.stripArraysTo typeDepth hi

theorem scalarSlots (type : Id) (count location component : Nat) :
    Agree Eq (b.scalarSlots type count location component)
      (b'.scalarSlots type count location component) := by
  refine .step (h.widthOf? type) fun _ => .step (h.numericType type) fun _ => ?_
  split <;> exact .pure rfl

theorem placeElements {place place' : Nat → Checked Placement}
    (hp : ∀ location, Agree Eq (place location) (place' location)) (type : Id)
    (count location : Nat) :
    Agree Eq (b.placeElements place type count location)
      (b'.placeElements place' type count location) := by
  refine .step (h.shape type) fun shape => ?_
  dsimp only
  split
  case isTrue => exact .pure rfl
  case isFalse =>
    exact .step (.mapM (r := Eq) (forall₂_refl _) fun _ _ heq => heq ▸ hp _) fun _ => .pure rfl

theorem placeTo (depth : Nat) (type : Id) (location component : Nat) :
    Agree Eq (b.placeTo depth type location component)
      (b'.placeTo depth type location component) := by
  induction depth generalizing type location component
  case zero => exact .pure rfl
  case succ depth hdepth =>
    have hd := h type
    unfold Binary.placeTo
    generalize b.definition? type = d at hd ⊢
    generalize b'.definition? type = d' at hd ⊢
    cases hd
    case none => exact .pure rfl
    case some i i' hi =>
      simp only [hi.op?]
      split
      case isTrue => exact .pure rfl
      case isFalse =>
        split
        case h_1 =>
          refine .step (h.arrayLength hi) fun _ => .step (hi.word 2) fun element => ?_
          exact .step (h.placeElements (fun _ => hdepth _ _ _) element _ _) fun _ => .pure rfl
        case h_2 =>
          refine .step (hi.word 2) fun column => .step (hi.word 3) fun _ => ?_
          exact h.placeElements (fun _ => hdepth _ _ _) column _ _
        case h_3 =>
          rw [hi.operands]
          refine .foldlM (s := Eq) (forall₂_refl _) (fun p _ member _ hp hm => ?_) rfl
          subst hp hm
          exact .step (hdepth member _ 0) fun _ => .pure rfl
        case h_4 =>
          refine .step (hi.word 2) fun _ => .step (hi.word 3) fun _ => .step (h.scalarSlots _ _ _ _)
            fun _ => ?_
          exact .step (h.shape type) fun _ => .pure rfl
        case h_8 => exact .pure rfl
        all_goals exact .step (h.scalarSlots _ _ _ _) fun _ => .pure rfl

theorem place (type : Id) (location component : Nat) :
    Agree Eq (b.place type location component) (b'.place type location component) :=
  h.placeTo typeDepth type location component

end Alike
end Binary
end Shader
