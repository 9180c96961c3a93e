import Shader.Proofs.Analysis.Reading

namespace Shader

open List

theorem bind_congr_of_ok {ε α β : Type} {x : Except ε α} {f g : α → Except ε β}
    (h : ∀ a, x = .ok a → f a = g a) :
    x >>= f = x >>= g := by
  cases x
  case error => rfl
  case ok a => exact h a rfl

theorem forall₂_of_mapM {ε α β : Type} {f : α → Except ε β} {l : List α} {r : List β}
    (h : l.mapM f = .ok r) :
    Forall₂ (fun a b => f a = .ok b) l r := by
  induction l generalizing r
  case nil =>
    cases h
    exact .nil
  case cons a l hi =>
    rw [mapM_cons] at h
    obtain ⟨b, hb, h⟩ := ok_of_bind h
    obtain ⟨bs, hbs, h⟩ := ok_of_bind h
    cases h
    exact .cons hb (hi hbs)

theorem mapM_congr_of_mem {ε α β : Type} {f g : α → Except ε β} {l : List α}
    (h : ∀ a ∈ l, f a = g a) :
    l.mapM f = l.mapM g := by
  induction l
  case nil => rfl
  case cons a l hi =>
    rw [forall_mem_cons] at h
    rw [mapM_cons, mapM_cons, h.left, hi h.right]

-- The types that a type is built from. A pointer to physical storage is a value by itself.
def Instruction.parts (i : Instruction) : List Id :=
  match i.op? with
  | some .typeVector | some .typeMatrix | some .typeArray | some .typeRuntimeArray =>
    (i.word? 2).toList
  | some .typeStruct => i.operands
  | some .typePointer =>
    if i.storageClass? = .ok (some .physicalStorageBuffer) then [] else (i.word? 3).toList
  | _ => []

namespace Binary

-- The type `id` is declared with at most `depth` levels, and each declaration it is built from is
-- as `P` says.
inductive Built (b : Binary) (P : Instruction → Prop) : (depth : Nat) → Id → Prop
  | mk {depth : Nat} {id : Id} {i : Instruction} : b.definition? id = some i → P i →
    (∀ x ∈ i.parts, Built b P depth x) → Built b P (depth + 1) id

theorem built_iff {b : Binary} {P : Instruction → Prop} {depth : Nat} {id : Id} :
    b.Built P (depth + 1) id ↔
      ∃ i ∈ b.definition? id, P i ∧ ∀ x ∈ i.parts, b.Built P depth x where
  mp
    | .mk hd hi hparts => ⟨_, hd, hi, hparts⟩
  mpr
    | ⟨_, hd, hi, hparts⟩ => .mk hd hi hparts

instance Built.decidable (b : Binary) (P : Instruction → Prop) [DecidablePred P] :
    (depth : Nat) → (id : Id) → Decidable (b.Built P depth id)
  | 0, _ => isFalse nofun
  | depth + 1, _ =>
    have (x : Id) : Decidable (b.Built P depth x) := decidable b P depth x
    -- Ids are finitely many, but not to be tried one by one.
    have (i : Instruction) : Decidable (∀ x ∈ i.parts, b.Built P depth x) := List.decidableBAll _ _
    decidable_of_iff' _ built_iff

def measured : List Op :=
  [.typeInt, .typeFloat, .typeBool, .typeVector, .typeMatrix, .typeArray, .typeRuntimeArray,
    .typeStruct, .typePointer]

inductive Shapes (b : Binary) (depth : Nat) (i : Instruction) : Shape → Prop
  | number {w : Word} (ho : i.op? = some .typeInt ∨ i.op? = some .typeFloat)
    (hw : i.word? 2 = some w) :
    Shapes b depth i (.scalar w.toNat)
  | bool (ho : i.op? = some .typeBool) : Shapes b depth i .bool
  | vector {x : Id} {n : Word} {width : Option Nat} {s : Shape} (ho : i.op? = some .typeVector)
    (hx : i.word? 2 = some x) (hn : i.word? 3 = some n) (hw : b.widthOf? x = .ok width)
    (hs : b.shapeTo depth x = .ok s) : Shapes b depth i (.vector n.toNat width s)
  | matrix {x : Id} {n : Word} {s : Shape} (ho : i.op? = some .typeMatrix) (hx : i.word? 2 = some x)
    (hn : i.word? 3 = some n) (hs : b.shapeTo depth x = .ok s) : Shapes b depth i
    (.matrix n.toNat s)
  | array {x : Id} {length : ArrayLength} {s : Shape} (ho : i.op? = some .typeArray)
    (hx : i.word? 2 = some x)
    (hl : b.arrayLength i = .ok length) (hs : b.shapeTo depth x = .ok s) : Shapes b depth i
    (.array length s)
  | runtimeArray {x : Id} {s : Shape} (ho : i.op? = some .typeRuntimeArray)
    (hx : i.word? 2 = some x)
    (hs : b.shapeTo depth x = .ok s) : Shapes b depth i (.runtimeArray s)
  | struct {ss : List Shape} (ho : i.op? = some .typeStruct)
    (hs : i.operands.mapM (b.shapeTo depth) = .ok ss) :
    Shapes b depth i (.struct ss)
  | address (ho : i.op? = some .typePointer)
    (hc : i.storageClass? = .ok (some .physicalStorageBuffer)) :
    Shapes b depth i .address
  | pointer {x : Id} {s : Shape} (ho : i.op? = some .typePointer)
    (hc : i.storageClass? ≠ .ok (some .physicalStorageBuffer)) (hx : i.word? 3 = some x)
    (hs : b.shapeTo depth x = .ok s) : Shapes b depth i (.pointer s)
  | other (ho : i.op? ∉ measured.map some) : Shapes b depth i .other

variable {b : Binary} {P : Instruction → Prop} {depth k : Nat} {id : Id} {i : Instruction}
  {s : Shape}

theorem shapes_of_shapeTo (hd : b.definition? id = some i) (h : b.shapeTo (depth + 1) id = .ok s) :
    b.Shapes depth i s := by
  have hword {k : Nat} {w : Word} (hw : i.word k = .ok w) : i.word? k = some w :=
    Instruction.word?_of_word hw
  rw [shapeTo] at h
  simp only [hd] at h
  split at h
  case h_1 ho =>
    obtain ⟨w, hw, h⟩ := ok_of_bind h
    cases h
    exact .number (.inl ho) (hword hw)
  case h_2 ho =>
    obtain ⟨w, hw, h⟩ := ok_of_bind h
    cases h
    exact .number (.inr ho) (hword hw)
  case h_3 ho =>
    cases h
    exact .bool ho
  case h_4 ho =>
    obtain ⟨x, hx, h⟩ := ok_of_bind h
    obtain ⟨n, hn, h⟩ := ok_of_bind h
    obtain ⟨width, hw, h⟩ := ok_of_bind h
    obtain ⟨s, hs, h⟩ := ok_of_bind h
    cases h
    exact .vector ho (hword hx) (hword hn) hw hs
  case h_5 ho =>
    obtain ⟨n, hn, h⟩ := ok_of_bind h
    obtain ⟨x, hx, h⟩ := ok_of_bind h
    obtain ⟨s, hs, h⟩ := ok_of_bind h
    cases h
    exact .matrix ho (hword hx) (hword hn) hs
  case h_6 ho =>
    obtain ⟨length, hl, h⟩ := ok_of_bind h
    obtain ⟨x, hx, h⟩ := ok_of_bind h
    obtain ⟨s, hs, h⟩ := ok_of_bind h
    cases h
    exact .array ho (hword hx) hl hs
  case h_7 ho =>
    obtain ⟨x, hx, h⟩ := ok_of_bind h
    obtain ⟨s, hs, h⟩ := ok_of_bind h
    cases h
    exact .runtimeArray ho (hword hx) hs
  case h_8 ho =>
    obtain ⟨ss, hs, h⟩ := ok_of_bind h
    cases h
    exact .struct ho hs
  case h_9 ho =>
    obtain ⟨c, hc, h⟩ := ok_of_bind h
    split at h
    case isTrue heq =>
      cases h
      exact .address ho (heq ▸ hc)
    case isFalse hne =>
      obtain ⟨x, hx, h⟩ := ok_of_bind h
      obtain ⟨s, hs, h⟩ := ok_of_bind h
      cases h
      exact .pointer ho (fun heq => hne (Except.ok.inj (hc.symm.trans heq))) (hword hx) hs
  case h_10 =>
    cases h
    exact .other (by simp_all [measured])

namespace Shapes

variable (h : b.Shapes depth i s)

include h

theorem of_vector (ho : i.op? = some .typeVector) :
    ∃ x n width e, i.word? 2 = some x ∧ i.word? 3 = some n
      ∧ b.widthOf? x = .ok width ∧ b.shapeTo depth x = .ok e ∧ s = .vector n.toNat width e := by
  cases h
  case vector x n width e _ hx hn hw he => exact ⟨x, n, width, e, hx, hn, hw, he, rfl⟩
  all_goals simp_all [measured]

theorem of_matrix (ho : i.op? = some .typeMatrix) : ∃ x n e, i.word? 2 = some x ∧ i.word? 3 = some n
    ∧ b.shapeTo depth x = .ok e ∧ s = .matrix n.toNat e := by
  cases h
  case matrix x n e _ hx hn he => exact ⟨x, n, e, hx, hn, he, rfl⟩
  all_goals simp_all [measured]

theorem of_array (ho : i.op? = some .typeArray) : ∃ x length e, i.word? 2 = some x
    ∧ b.arrayLength i = .ok length ∧ b.shapeTo depth x = .ok e ∧ s = .array length e := by
  cases h
  case array x length e _ hx hl he => exact ⟨x, length, e, hx, hl, he, rfl⟩
  all_goals simp_all [measured]

theorem of_runtimeArray (ho : i.op? = some .typeRuntimeArray) :
    ∃ x e, i.word? 2 = some x ∧ b.shapeTo depth x = .ok e ∧ s = .runtimeArray e := by
  cases h
  case runtimeArray x e _ hx he => exact ⟨x, e, hx, he, rfl⟩
  all_goals simp_all [measured]

theorem of_struct (ho : i.op? = some .typeStruct) :
    ∃ ss, i.operands.mapM (b.shapeTo depth) = .ok ss ∧ s = .struct ss := by
  cases h
  case struct ss _ hs => exact ⟨ss, hs, rfl⟩
  all_goals simp_all [measured]

end Shapes

section

variable {x : Id}

theorem mem_parts_of_word
    (ho : i.op? = some .typeVector ∨ i.op? = some .typeMatrix ∨ i.op? = some .typeArray
      ∨ i.op? = some .typeRuntimeArray)
    (hx : i.word? 2 = some x) : x ∈ i.parts := by
  obtain ho | ho | ho | ho := ho <;> simp [Instruction.parts, ho, hx]

theorem mem_parts_of_struct (ho : i.op? = some .typeStruct) (hx : x ∈ i.operands) :
    x ∈ i.parts := by
  simpa [Instruction.parts, ho] using hx

theorem mem_parts_of_pointer (ho : i.op? = some .typePointer)
    (hc : i.storageClass? ≠ .ok (some .physicalStorageBuffer)) (hx : i.word? 3 = some x) :
    x ∈ i.parts := by
  simp [Instruction.parts, ho, hc, hx]

end

theorem shapeTo_congr (hd : b.definition? id = some i)
    (h : ∀ x ∈ i.parts, b.shapeTo depth x = b.shapeTo k x) :
    b.shapeTo (depth + 1) id = b.shapeTo (k + 1) id := by
  have hpart (ho : i.op? = some .typeVector ∨ i.op? = some .typeMatrix ∨ i.op? = some .typeArray
      ∨ i.op? = some .typeRuntimeArray) (x : Id) (hx : i.word 2 = .ok x) : b.shapeTo depth x
        = b.shapeTo k x :=
    h x (mem_parts_of_word ho (Instruction.word?_of_word hx))
  rw [shapeTo, shapeTo]
  simp only [hd]
  split
  case h_4 ho => exact bind_congr_of_ok fun x hx => by rw [hpart (.inl ho) x hx]
  case h_5 ho =>
    exact bind_congr fun _ => bind_congr_of_ok fun x hx => by rw [hpart (.inr (.inl ho)) x hx]
  case h_6 ho =>
    exact bind_congr fun _ => bind_congr_of_ok fun x hx => by
      rw [hpart (.inr (.inr (.inl ho))) x hx]
  case h_7 ho => exact bind_congr_of_ok fun x hx => by rw [hpart (.inr (.inr (.inr ho))) x hx]
  case h_8 ho => rw [mapM_congr_of_mem fun x hx => h x (mem_parts_of_struct ho hx)]
  case h_9 ho =>
    refine bind_congr_of_ok fun c hc => ?_
    split
    case isTrue => rfl
    case isFalse hne =>
      have hc : i.storageClass? ≠ .ok (some .physicalStorageBuffer) := by
        rwa [hc, ne_eq, Except.ok.injEq]
      refine bind_congr_of_ok fun x hx => ?_
      rw [h x (mem_parts_of_pointer ho hc (Instruction.word?_of_word hx))]
  all_goals rfl

namespace Built

theorem exists_definition? (h : b.Built P k id) : ∃ i, b.definition? id = some i := by
  cases h
  case mk i _ _ hd => exact ⟨i, hd⟩

theorem of_definition? (h : b.Built P k id) (hd : b.definition? id = some i) :
    ∃ n, k = n + 1 ∧ P i ∧ ∀ x ∈ i.parts, b.Built P n x := by
  cases h
  case mk n j hi hparts hd' =>
    cases hd.symm.trans hd'
    exact ⟨n, rfl, hi, hparts⟩

theorem shapeTo_eq (h : b.Built P k id) (hk : k ≤ depth) : b.shapeTo depth id = b.shapeTo k id := by
  induction h generalizing depth
  case mk k id i hd _ _ hi =>
    obtain ⟨depth, rfl⟩ : ∃ d, depth = d + 1 := ⟨depth - 1, by omega⟩
    exact shapeTo_congr hd fun x hx => hi x hx (by omega)

theorem shape_eq (h : b.Built P k id) (hk : k ≤ typeDepth) : b.shape id = b.shapeTo k id :=
  h.shapeTo_eq hk

end Built
end Binary
end Shader
