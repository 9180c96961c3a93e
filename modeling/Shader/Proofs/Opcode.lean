import Mathlib
import Shader.Enumerant
import Shader.Op.Family

namespace Shader

namespace Registry

-- Positions are counted over all runs, so a position lies in one run only, whatever numbers the
-- runs assign.
theorem position?_injective {r : Registry} {n m i : Nat} (hn : r.position? n = some i)
    (hm : r.position? m = some i) : n = m := by
  induction r generalizing i
  case nil => cases hn
  case cons run rest hi =>
    simp only [position?] at hn hm
    split at hn <;> split at hm
    case isTrue.isTrue => simp at hn hm; omega
    case isTrue.isFalse =>
      obtain ⟨j, -, rfl⟩ := Option.map_eq_some_iff.mp hm
      simp at hn; omega
    case isFalse.isTrue =>
      obtain ⟨j, -, rfl⟩ := Option.map_eq_some_iff.mp hn
      simp at hm; omega
    case isFalse.isFalse =>
      obtain ⟨j, hj, rfl⟩ := Option.map_eq_some_iff.mp hn
      obtain ⟨k, hk, h⟩ := Option.map_eq_some_iff.mp hm
      obtain rfl : k = j := by omega
      exact hi hj hk

theorem position?_lt {r : Registry} {n i : Nat} (h : r.position? n = some i) :
    i < (r.map Run.count).sum := by
  induction r generalizing i
  case nil => cases h
  case cons run rest hi =>
    simp only [position?] at h
    split at h
    case isTrue => simp at h ⊢; omega
    case isFalse =>
      obtain ⟨j, hj, rfl⟩ := Option.map_eq_some_iff.mp h
      have := hi hj
      simp; omega

end Registry

namespace Op

def count : Nat := 712

theorem ctorIdx_lt (op : Op) : op.ctorIdx < count := by
  cases op <;> decide

theorem registry_count : (registry.map Run.count).sum = count := by
  decide

-- The table of rows and the registry are written down separately. This compares them.
theorem position?_number_ofNat :
    ∀ i < count, registry.position? (Op.ofNat i).number = some i
      ∧ (Op.ofNat i).number < 2 ^ 16 := by
  decide +kernel

@[simp]
theorem ofNumber?_number (op : Op) : ofNumber? op.number = some op := by
  have h := (position?_number_ofNat _ op.ctorIdx_lt).left
  rw [ofNat_ctorIdx] at h
  simp [ofNumber?, h, ofNat_ctorIdx]

theorem number_lt (op : Op) : op.number < 2 ^ 16 := by
  have h := (position?_number_ofNat _ op.ctorIdx_lt).right
  rwa [ofNat_ctorIdx] at h

theorem number_of_ofNumber? {n : Nat} {op : Op} (h : ofNumber? n = some op) : op.number = n := by
  obtain ⟨i, hi, rfl⟩ := Option.map_eq_some_iff.mp h
  have hlt := registry_count ▸ Registry.position?_lt hi
  exact Registry.position?_injective (position?_number_ofNat i hlt).left hi

end Op

namespace StorageClass

theorem position?_number : ∀ i < (registry.map Run.count).sum,
    registry.position? (StorageClass.ofNat i).number = some i := by
  decide

theorem ofNumber?_eq_some_iff {n : Nat} {c : StorageClass} :
    ofNumber? n = some c ↔ n = c.number := by
  constructor
  case mp =>
    intro h
    obtain ⟨i, hi, rfl⟩ := Option.map_eq_some_iff.mp h
    exact Registry.position?_injective hi (position?_number i (Registry.position?_lt hi))
  case mpr =>
    rintro rfl
    cases c <;> rfl

end StorageClass
end Shader
