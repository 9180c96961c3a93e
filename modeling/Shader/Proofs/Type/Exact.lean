import Shader.Proofs.Type.Size

namespace Shader

open List

-- What a measure of types counts. Elements of a runtime array count once or not at all.
structure Gauge where
  number : (width : Nat) → Nat
  bool : Nat
  address : Nat
  runtimeArray : Bool

namespace Gauge

def bits : Gauge where
  number width := width
  bool := 32
  address := 64
  runtimeArray := false

def components : Gauge where
  number width := if width = 64 then 2 else 1
  bool := 1
  address := 2
  runtimeArray := true

-- The measure of a type by those of its parts. With `strip` the outermost array level is left out.
def total (g : Gauge) (b : Binary) (strip : Bool) (i : Instruction) (part : Id → Nat) : Nat :=
  match i.op? with
  | some .typeInt | some .typeFloat => (i.word? 2).elim 0 fun width => g.number width.toNat
  | some .typeBool => g.bool
  | some .typeVector | some .typeMatrix => (i.word? 3).elim 0 UInt32.toNat * (i.word? 2).elim 0 part
  | some .typeArray =>
    (if strip then 1 else (b.arrayLength i).toOption.elim 0 ArrayLength.count)
      * (i.word? 2).elim 0 part
  | some .typeRuntimeArray => if g.runtimeArray then (i.word? 2).elim 0 part else 0
  | some .typeStruct => (i.operands.map part).sum
  | some .typePointer =>
    if i.storageClass? = .ok (some .physicalStorageBuffer) then g.address
      else (i.word? 3).elim 0 part
  | _ => 0

end Gauge

namespace Binary

-- The type `id` measures `n`. What is not defined measures nothing, and only a pointer leaves it to
-- the type it points to to strip an array level.
inductive Counts (b : Binary) (g : Gauge) : (strip : Bool) → Id → (n : Nat) → Prop
  | undefined {strip : Bool} {id : Id} (hd : b.definition? id = none) : Counts b g strip id 0
  | declared {strip : Bool} {id : Id} {i : Instruction} {part : Id → Nat}
    (hd : b.definition? id = some i)
    (hparts : ∀ x ∈ i.parts, Counts b g (strip && i.is .typePointer) x (part x)) :
    Counts b g strip id (g.total b strip i part)

-- The type `id` has at most so many levels. What is not defined has none.
inductive Levels (b : Binary) : (levels : Nat) → Id → Prop
  | undefined {levels : Nat} {id : Id} (hd : b.definition? id = none) : Levels b levels id
  | declared {levels : Nat} {id : Id} {i : Instruction} (hd : b.definition? id = some i)
    (hparts : ∀ x ∈ i.parts, Levels b levels x) : Levels b (levels + 1) id

theorem levels_zero_iff {b : Binary} {id : Id} : b.Levels 0 id ↔ b.definition? id = none := by
  refine ⟨fun h => ?_, .undefined⟩
  cases h
  assumption

theorem levels_iff {b : Binary} {levels : Nat} {id : Id} : b.Levels (levels + 1) id ↔
    ∀ i ∈ b.definition? id, ∀ x ∈ i.parts, b.Levels levels x := by
  constructor
  case mp =>
    intro h i hi
    cases h
    case undefined hd => cases hd.symm.trans hi
    case declared hparts hd =>
      cases hd.symm.trans hi
      exact hparts
  case mpr =>
    intro h
    cases hd : b.definition? id
    case none => exact .undefined hd
    case some i => exact .declared hd (h i hd)

instance Levels.decidable (b : Binary) : (levels : Nat) → (id : Id) → Decidable (b.Levels levels id)
  | 0, _ => decidable_of_iff' _ levels_zero_iff
  | levels + 1, _ =>
    have (x : Id) : Decidable (b.Levels levels x) := decidable b levels x
    have (i : Instruction) : Decidable (∀ x ∈ i.parts, b.Levels levels x) := List.decidableBAll _ _
    decidable_of_iff' _ levels_iff

end Binary

namespace Gauge

variable {g : Gauge} {b : Binary} {strip : Bool} {i : Instruction} {part part' : Id → Nat}

theorem elim_congr {k : Nat} (h : ∀ x, i.word? k = some x → part x = part' x) :
    (i.word? k).elim 0 part = (i.word? k).elim 0 part' := by
  cases hx : i.word? k
  case none => rfl
  case some x => exact h x hx

theorem total_congr (h : ∀ x ∈ i.parts, part x = part' x) :
    g.total b strip i part = g.total b strip i part' := by
  have hword (ho : i.op? = some .typeVector ∨ i.op? = some .typeMatrix ∨ i.op? = some .typeArray
      ∨ i.op? = some .typeRuntimeArray) : (i.word? 2).elim 0 part = (i.word? 2).elim 0 part' :=
    elim_congr fun x hx => h x (Binary.mem_parts_of_word ho hx)
  unfold total
  split
  case h_4 ho => rw [hword (.inl ho)]
  case h_5 ho => rw [hword (.inr (.inl ho))]
  case h_6 ho => rw [hword (.inr (.inr (.inl ho)))]
  case h_7 ho => rw [hword (.inr (.inr (.inr ho)))]
  case h_8 ho => rw [map_congr_left fun x hx => h x (Binary.mem_parts_of_struct ho hx)]
  case h_9 ho =>
    split
    case isTrue => rfl
    case isFalse hc => exact elim_congr fun x hx => h x (Binary.mem_parts_of_pointer ho hc hx)
  all_goals rfl

end Gauge

namespace Binary

variable {b : Binary} {g : Gauge} {strip : Bool} {id : Id} {n n' levels depth : Nat} {s : Shape}

theorem Counts.unique (h : b.Counts g strip id n) (h' : b.Counts g strip id n') : n = n' := by
  induction h generalizing n'
  case undefined hd =>
    cases h'
    case undefined => rfl
    case declared hd' => cases hd.symm.trans hd'
  case declared hd _ hi =>
    cases h'
    case undefined hd' => cases hd.symm.trans hd'
    case declared hparts' hd' =>
      cases hd.symm.trans hd'
      exact Gauge.total_congr fun x hx => hi x hx (hparts' x hx)

end Binary

-- A measure of shapes that follows the gauge and is cut off at every step; `inner` measures parts,
-- without stripping.
structure Gauge.CutOff (g : Gauge) (inner : Shape → Nat) (strip : Bool) (measure : Shape → Nat) :
    Prop where
  absent       : measure .absent = 0
  number       : ∀ width ≤ Word.greatest, measure (.scalar width) = capped (g.number width)
  bool         : measure .bool = capped g.bool
  vector       : ∀ n width s, measure (.vector n width s) = cappedMul n (inner s)
  matrix       : ∀ n s, measure (.matrix n s) = cappedMul n (inner s)
  array        : ∀ length s, measure (.array length s) = if strip then inner s
    else cappedMul length.count (inner s)
  runtimeArray : ∀ s, measure (.runtimeArray s) = if g.runtimeArray then inner s else 0
  struct       : ∀ ss, measure (.struct ss) = ss.foldr (fun s n => cappedAdd (inner s) n) 0
  address      : measure .address = capped g.address
  pointer      : ∀ s, measure (.pointer s) = measure s
  other        : measure .other = 0

namespace Shape

theorem bitsOfAll_eq_foldr (ss : List Shape) :
    bitsOfAll ss = ss.foldr (fun s n => cappedAdd s.bits n) 0 := by
  induction ss
  case nil => rfl
  case cons s ss hi => rw [bitsOfAll, hi, foldr_cons]

theorem componentsOfAll_eq_foldr (ss : List Shape) :
    componentsOfAll ss = ss.foldr (fun s n => cappedAdd (s.components false) n) 0 := by
  induction ss
  case nil => rfl
  case cons s ss hi => rw [componentsOfAll, hi, foldr_cons]

theorem cutOff_bits : Gauge.bits.CutOff bits false bits where
  absent := rfl
  number _ h := (capped_of_le h).symm
  bool := rfl
  vector _ _ _ := rfl
  matrix _ _ := rfl
  array _ _ := rfl
  runtimeArray _ := rfl
  struct ss := bitsOfAll_eq_foldr ss
  address := rfl
  pointer _ := rfl
  other := rfl

theorem cutOff_components (strip : Bool) :
    Gauge.components.CutOff (components false) strip (components strip) where
  absent := rfl
  number width _ := by
    by_cases h : width = 64 <;> simp [components, Gauge.components, h, capped, Word.greatest]
  bool := rfl
  vector _ _ _ := rfl
  matrix _ _ := rfl
  array _ _ := rfl
  runtimeArray _ := rfl
  struct ss := componentsOfAll_eq_foldr ss
  address := rfl
  pointer _ := rfl
  other := rfl

end Shape

namespace Binary

theorem foldr_cappedAdd {f : Id → Nat} {inner : Shape → Nat} {xs : List Id} {ss : List Shape}
    (h : Forall₂ (fun x s => inner s = capped (f x)) xs ss) :
    ss.foldr (fun s n => cappedAdd (inner s) n) 0 = capped (xs.map f).sum := by
  induction h
  case nil => rfl
  case cons hx _ hi => rw [foldr_cons, hi, hx, cappedAdd_capped, map_cons, sum_cons]

variable {b : Binary} {g : Gauge} {strip : Bool} {id x : Id} {i : Instruction}
  {n levels depth : Nat} {s : Shape} {measure inner : Shape → Nat}

theorem Counts.of_part (hd : b.definition? id = some i) (hp : i.parts = [x])
    (h : b.Counts g (strip && i.is .typePointer) x n) :
    b.Counts g strip id (g.total b strip i fun _ => n) := by
  refine .declared hd fun y hy => ?_
  rw [hp, mem_singleton] at hy
  exact hy ▸ h

theorem Counts.of_no_part (hd : b.definition? id = some i) (hp : i.parts = []) :
    b.Counts g strip id (g.total b strip i fun _ => 0) :=
  .declared hd (by simp [hp])

theorem shapeTo_undefined (depth : Nat) (hd : b.definition? id = none) :
    b.shapeTo depth id = .ok .absent := by
  cases depth
  case zero => rfl
  case succ depth =>
    rw [shapeTo, hd]
    rfl

theorem total_of_other (ho : i.op? ∉ measured.map some) :
    i.parts = [] ∧ g.total b strip i (fun _ => 0) = 0 := by
  constructor
  · unfold Instruction.parts
    split <;> simp_all [measured]
  · unfold Gauge.total
    split <;> simp_all [measured]

theorem exists_part {xs : List Id} {ss : List Shape} (hss : xs.mapM (b.shapeTo depth) = .ok ss)

    (h : ∀ x ∈ xs, ∀ e, b.shapeTo depth x = .ok e → ∃ n, b.Counts g false x n
      ∧ inner e = capped n) :
    ∃ part : Id → Nat, (∀ x ∈ xs, b.Counts g false x (part x))
      ∧ ss.foldr (fun s n => cappedAdd (inner s) n) 0 = capped (xs.map part).sum := by
  have hex (x : Id) (hx : x ∈ xs) :
      ∃ n, b.Counts g false x n ∧ ∀ e, b.shapeTo depth x = .ok e → inner e = capped n := by
    obtain ⟨e, he⟩ := Succeeds.mapM_iff.mp ⟨ss, hss⟩ x hx
    obtain ⟨n, hn, heq⟩ := h x hx e he
    refine ⟨n, hn, fun e' he' => ?_⟩
    cases he.symm.trans he'
    exact heq
  choose! part hcounts hpart using hex
  have hall := (forall₂_and_left _ _).mpr ⟨hpart, forall₂_of_mapM hss⟩
  exact ⟨part, hcounts, foldr_cappedAdd (hall.imp fun x s hx => hx.left s hx.right)⟩

theorem exists_counts (h : b.Levels levels id) (hl : levels ≤ depth)
    (hs : b.shapeTo depth id = .ok s) (hi : g.CutOff inner false inner)
    (hm : g.CutOff inner strip measure) :
    ∃ n, b.Counts g strip id n ∧ measure s = capped n := by
  induction h generalizing depth s strip measure
  case undefined id hd =>
    cases (shapeTo_undefined depth hd).symm.trans hs
    exact ⟨0, .undefined hd, hm.absent⟩
  case declared levels id i hd _ ih =>
    obtain ⟨depth, rfl⟩ : ∃ d, depth = d + 1 := ⟨depth - 1, by omega⟩
    have hl : levels ≤ depth := by omega
    -- Types of one part, other than pointers, are measured alike: the part is never stripped.
    have hword (ho : i.op? = some .typeVector ∨ i.op? = some .typeMatrix ∨ i.op? = some .typeArray
        ∨ i.op? = some .typeRuntimeArray) {x : Id} {e : Shape} (hx : i.word? 2 = some x)
        (he : b.shapeTo depth x = .ok e) :
        ∃ n, b.Counts g strip id (g.total b strip i fun _ => n) ∧ inner e = capped n := by
      have hnot : (strip && i.is .typePointer) = false := by
        obtain ho | ho | ho | ho := ho <;> simp [Instruction.is, ho]
      have hp : i.parts = [x] := by
        obtain ho | ho | ho | ho := ho <;> simp [Instruction.parts, ho, hx]
      obtain ⟨n, hn, heq⟩ := ih x (by simp [hp]) hl he hi
      exact ⟨n, .of_part hd hp (hnot ▸ hn), heq⟩
    cases shapes_of_shapeTo hd hs
    case number w ho hw =>
      refine ⟨_, .of_no_part hd (by obtain ho | ho := ho <;> simp [Instruction.parts, ho]), ?_⟩
      rw [hm.number _ (Nat.le_of_lt_succ w.toNat_lt)]
      obtain ho | ho := ho <;> simp [Gauge.total, ho, hw]
    case bool ho =>
      refine ⟨_, .of_no_part hd (by simp [Instruction.parts, ho]), ?_⟩
      simp [hm.bool, Gauge.total, ho]
    case vector x w _ e ho hx hw _ he =>
      obtain ⟨n, hn, heq⟩ := hword (.inl ho) hx he
      refine ⟨_, hn, ?_⟩
      rw [hm.vector, heq, cappedMul_capped]
      simp [Gauge.total, ho, hx, hw]
    case matrix x w e ho hx hw he =>
      obtain ⟨n, hn, heq⟩ := hword (.inr (.inl ho)) hx he
      refine ⟨_, hn, ?_⟩
      rw [hm.matrix, heq, cappedMul_capped]
      simp [Gauge.total, ho, hx, hw]
    case array x length e ho hx hlength he =>
      obtain ⟨n, hn, heq⟩ := hword (.inr (.inr (.inl ho))) hx he
      refine ⟨_, hn, ?_⟩
      rw [hm.array, heq, cappedMul_capped]
      cases strip <;> simp [Gauge.total, ho, hx, hlength, Except.toOption]
    case runtimeArray x e ho hx he =>
      obtain ⟨n, hn, heq⟩ := hword (.inr (.inr (.inr ho))) hx he
      refine ⟨_, hn, ?_⟩
      rw [hm.runtimeArray, heq]
      cases hg : g.runtimeArray <;> simp [Gauge.total, ho, hx, hg, capped]
    case struct ss ho hss =>
      have hp : i.parts = i.operands := by simp [Instruction.parts, ho]
      have hnot : (strip && i.is .typePointer) = false := by simp [Instruction.is, ho]
      obtain ⟨part, hcounts, heq⟩ := exists_part hss fun x hx e he => ih x (hp ▸ hx) hl he hi
      refine ⟨g.total b strip i part, .declared hd fun x hx => hnot ▸ hcounts x (hp ▸ hx), ?_⟩
      simp [hm.struct, heq, Gauge.total, ho]
    case address ho hc =>
      refine ⟨_, .of_no_part hd (by simp [Instruction.parts, ho, hc]), ?_⟩
      simp [hm.address, Gauge.total, ho, hc]
    -- Behind a pointer stripping goes on, so the hypothesis is used at `strip` itself.
    case pointer x e ho hc hx he =>
      have hp : i.parts = [x] := by simp [Instruction.parts, ho, hc, hx]
      obtain ⟨n, hn, heq⟩ := ih x (by simp [hp]) hl he hm
      refine ⟨_, .of_part hd hp (by simpa [Instruction.is, ho] using hn), ?_⟩
      simp [hm.pointer, heq, Gauge.total, ho, hc, hx]
    case other ho =>
      obtain ⟨hp, htotal⟩ := total_of_other ho
      exact ⟨_, .of_no_part hd hp, by rw [hm.other, htotal]; rfl⟩

end Binary

theorem sizes_saturate {words : List Word} {m : Module} {id : Id}
    (hm : Module.ofWords words = .ok m) (hl : m.Levels 16 id) : ∃ s, m.shape id = .ok s
      ∧ (∃ size, (∀ n, m.Counts .bits false id n ↔ n = size) ∧ s.bits = min size (2 ^ 32 - 1))
      ∧ (∀ strip, ∃ count, (∀ n, m.Counts .components strip id n ↔ n = count)
        ∧ s.components strip = min count (2 ^ 32 - 1))
      ∧ s.bits ≤ 8 * s.bytes ∧ 8 * s.bytes < s.bits + 8 := by
  obtain ⟨s, hs⟩ := Binary.shape_succeeds (Module.isAnalysed_of_ofWords hm).indexed.framed id
  have hunique {g : Gauge} {strip : Bool} {size : Nat} (h : m.Counts g strip id size) (n : Nat) :
      m.Counts g strip id n ↔ n = size := ⟨fun hn => hn.unique h, fun heq => heq ▸ h⟩
  refine ⟨s, hs, ?_, fun strip => ?_, ?_⟩
  · obtain ⟨size, hcounts, heq⟩ :=
      Binary.exists_counts hl (Nat.le_refl _) hs Shape.cutOff_bits Shape.cutOff_bits
    exact ⟨size, hunique hcounts, heq⟩
  · obtain ⟨size, hcounts, heq⟩ :=
      Binary.exists_counts hl (Nat.le_refl _) hs (Shape.cutOff_components false)
      (Shape.cutOff_components strip)
    exact ⟨size, hunique hcounts, heq⟩
  · unfold Shape.bytes
    omega

namespace Exact

-- Fifteen levels of arrays of eight around a double.
def tower : List Word :=
  [119734787, 66816, 0, 19, 0, 262165, 1, 32, 0, 262187, 1, 2, 8, 196630, 3, 64]
    ++ (range 15).flatMap fun k => [262172, .ofNat (k + 4), .ofNat (k + 3), 2]

theorem sizes_saturate_tower :
    ∃ m s size, Module.ofWords tower = .ok m ∧ m.Levels 16 18 ∧ m.shape 18 = .ok s
      ∧ m.Counts .bits false 18 size ∧ s.bits = min size (2 ^ 32 - 1) ∧ 2 ^ 32 - 1 ≤ size := by
  obtain ⟨m, hm, hl, hbits⟩ : ∃ m, Module.ofWords tower = .ok m ∧ m.Levels 16 18
      ∧ (m.shape 18).map (·.bits) = .ok (2 ^ 32 - 1) := exists_ok_of_decide (by decide +kernel)
  obtain ⟨s, hs, ⟨size, hcounts, heq⟩, _⟩ := sizes_saturate hm hl
  rw [hs] at hbits
  have hbits : s.bits = 2 ^ 32 - 1 := Except.ok.inj hbits
  exact ⟨m, s, size, hm, hl, hs, (hcounts size).mpr rfl, heq, by omega⟩

end Exact
end Shader
