import Shader.Proofs.Analysis.Analysed
import Shader.Proofs.Type.Shape

namespace Shader

open List

theorem capped_of_le {n : Nat} (h : n ≤ Word.greatest) : capped n = n :=
  Nat.min_eq_left h

theorem cappedAdd_capped (n m : Nat) : cappedAdd (capped n) (capped m) = capped (n + m) := by
  unfold cappedAdd capped
  omega

theorem cappedMul_capped (n m : Nat) : cappedMul n (capped m) = capped (n * m) := by
  unfold cappedMul
  by_cases h : m ≤ Word.greatest
  case pos => rw [capped_of_le h]
  case neg =>
    cases n
    case zero => rw [Nat.zero_mul, Nat.zero_mul]
    case succ n =>
      -- Both products are past the greatest word.
      have hm : m ≤ (n + 1) * m := Nat.le_mul_of_pos_left m n.succ_pos
      have hc : capped m ≤ (n + 1) * capped m := Nat.le_mul_of_pos_left (capped m) n.succ_pos
      unfold capped at *
      omega

namespace Shape

mutual

def exactBits : Shape → Nat
  | .scalar width => width
  | .bool => 32
  | .vector count _ component => count * component.exactBits
  | .matrix count column => count * column.exactBits
  | .array length element => length.count * element.exactBits
  | .struct members => exactBitsOfAll members
  | .address => 64
  | .pointer target => target.exactBits
  | .absent | .runtimeArray _ | .other => 0

def exactBitsOfAll : List Shape → Nat
  | [] => 0
  | s :: rest => s.exactBits + exactBitsOfAll rest

end

theorem bitsOfAll_eq_capped {ss : List Shape} (h : ∀ s ∈ ss, s.bits = capped s.exactBits) :
    bitsOfAll ss = capped (exactBitsOfAll ss) := by
  induction ss
  case nil => rfl
  case cons s ss hi =>
    rw [forall_mem_cons] at h
    rw [bitsOfAll, exactBitsOfAll, h.left, hi h.right, cappedAdd_capped]

theorem dvd_exactBitsOfAll {n : Nat} {ss : List Shape} (h : ∀ s ∈ ss, n ∣ s.exactBits) :
    n ∣ exactBitsOfAll ss := by
  induction ss
  case nil => exact Nat.dvd_zero n
  case cons s ss hi =>
    rw [forall_mem_cons] at h
    exact Nat.dvd_add h.left (hi h.right)

end Shape

-- As far as numbers below 2 ^ 32 go, this many bytes are this many bits.
def Measures (bytes bits : Nat) : Prop :=
  min (8 * bytes) (2 ^ 32) = min bits (2 ^ 32)

namespace Measures

variable {a b x y : Nat}

theorem zero : Measures 0 0 :=
  rfl

theorem add (ha : Measures a x) (hb : Measures b y) : Measures (cappedAdd a b) (x + y) := by
  unfold Measures cappedAdd capped Word.greatest at *
  omega

theorem mul (h : Measures a x) (n : Nat) : Measures (cappedMul n a) (n * x) := by
  by_cases hx : x < 2 ^ 32
  case pos =>
    obtain rfl : x = 8 * a := by
      unfold Measures at h
      omega
    rw [Nat.mul_left_comm]
    unfold Measures cappedMul capped Word.greatest
    omega
  case neg =>
    cases n
    case zero =>
      rw [Nat.zero_mul, cappedMul, Nat.zero_mul]
      exact zero
    case succ n =>
      have hle : x ≤ (n + 1) * x := Nat.le_mul_of_pos_left x n.succ_pos
      have hle' : a ≤ (n + 1) * a := Nat.le_mul_of_pos_left a n.succ_pos
      unfold Measures cappedMul capped Word.greatest at *
      omega

theorem eq_iff (ha : Measures a x) (hb : Measures b y) (hy : y < 2 ^ 32) : a = b ↔ x = y := by
  unfold Measures at *
  omega

theorem of_bits {s : Shape} (h : s.bits = capped s.exactBits) (hd : 8 ∣ s.exactBits) :
    Measures s.bytes s.exactBits := by
  unfold Measures Shape.bytes
  rw [h]
  unfold capped Word.greatest
  omega

end Measures

def Instruction.IsWhole (i : Instruction) : Prop :=
  i.op? = some .typeInt ∨ i.op? = some .typeFloat → ∀ w ∈ i.word? 2, 8 ∣ w.toNat

namespace Binary

variable {b : Binary} {P : Instruction → Prop} {depth k : Nat} {id : Id} {s : Shape}

theorem bits_eq_capped (h : b.shapeTo depth id = .ok s) : s.bits = capped s.exactBits := by
  induction depth generalizing id s
  case zero =>
    cases h
    rfl
  case succ depth hi =>
    cases hd : b.definition? id
    case none =>
      rw [shapeTo, hd] at h
      cases h
      rfl
    case some i =>
      cases shapes_of_shapeTo hd h
      case number w _ _ => exact (capped_of_le (Nat.le_of_lt_succ w.toNat_lt)).symm
      case vector e _ _ _ _ he | matrix e _ _ _ he | array e _ _ _ he =>
        rw [Shape.bits, hi he]
        exact cappedMul_capped ..
      case struct ss _ hs =>
        refine Shape.bitsOfAll_eq_capped fun e he => ?_
        obtain ⟨x, _, he⟩ := (mem_of_mapM hs).mp he
        exact hi he
      case pointer he =>
        rw [Shape.bits, Shape.exactBits]
        exact hi he
      all_goals rfl

theorem Built.dvd_exactBits (h : b.Built P k id) (hp : ∀ i, P i → i.IsWhole)
    (hs : b.shapeTo k id = .ok s) :
    8 ∣ s.exactBits := by
  induction h generalizing s
  case mk k id i hd hi _ ih =>
    cases shapes_of_shapeTo hd hs
    case number w ho hw => exact hp i hi ho w hw
    case vector ho hx _ _ he =>
      exact Nat.dvd_mul_left_of_dvd (ih _ (mem_parts_of_word (.inl ho) hx) he) _
    case matrix ho hx _ he =>
      exact Nat.dvd_mul_left_of_dvd (ih _ (mem_parts_of_word (.inr (.inl ho)) hx) he) _
    case array ho hx _ he =>
      exact Nat.dvd_mul_left_of_dvd (ih _ (mem_parts_of_word (.inr (.inr (.inl ho))) hx) he) _
    case struct ss ho hss =>
      refine Shape.dvd_exactBitsOfAll fun e he => ?_
      obtain ⟨x, hx, he⟩ := (mem_of_mapM hss).mp he
      exact ih x (mem_parts_of_struct ho hx) he
    case pointer ho hc hx he =>
      rw [Shape.exactBits]
      exact ih _ (mem_parts_of_pointer ho hc hx) he
    case runtimeArray => exact Nat.dvd_zero 8
    all_goals decide

theorem Built.measures_bytes (h : b.Built P k id) (hp : ∀ i, P i → i.IsWhole)
    (hs : b.shapeTo k id = .ok s) :
    Measures s.bytes s.exactBits :=
  .of_bits (bits_eq_capped hs) (h.dvd_exactBits hp hs)

end Binary
end Shader
