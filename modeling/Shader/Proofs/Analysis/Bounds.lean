import Shader.Proofs.Analysis.Acceptance
import Shader.Proofs.Analysis.Body

namespace Shader

open List

-- How instructions can be accepted with fewer words than may be read.
inductive Shortage where
  | capability
  | sizedCopy
  | matrixLoad
  | matrixStore
  | sampledImage
  deriving DecidableEq

instance : Fintype Shortage where
  elems    := {.capability, .sizedCopy, .matrixLoad, .matrixStore, .sampledImage}
  complete := fun shortage => by cases shortage <;> decide

def Shortage.Affects (b : Binary) (i : Instruction) : Shortage → Prop
  | capability   => i.op? = some .capability ∧ i.length = 1
  | sizedCopy    => i.op? = some .copyMemorySized ∧ i.length < 3
  | matrixLoad   =>
    (i.op? = some .cooperativeMatrixLoadKHR ∨ i.op? = some .cooperativeMatrixLoadNV) ∧ i.length = 3
  | matrixStore  =>
    (i.op? = some .cooperativeMatrixStoreKHR ∨ i.op? = some .cooperativeMatrixStoreNV)
      ∧ i.length = 1
  | sampledImage =>
    i.op? = some .typeSampledImage ∧ ∃ id ∈ i.word? 2, ∃ image ∈ b.definition? id, image.length < 9

instance (b : Binary) (i : Instruction) : DecidablePred (Shortage.Affects b i)
  | .capability | .sizedCopy | .matrixLoad | .matrixStore | .sampledImage =>
    inferInstanceAs (Decidable (_ ∧ _))

namespace Shortage

variable {b : Binary} {i : Instruction}

theorem readable_iff (h : i.Framed) :
    i.Readable ↔ ∀ shortage ≠ sampledImage, ¬shortage.Affects b i := by
  have hpos := h.pos
  have hload {op : Op} (ho : i.op? = some op) (hop : 2 < op.leastLength) : 3 ≤ i.length :=
    Instruction.word_iff.mp (h.word_succeeds ho hop)
  constructor
  case mp =>
    rintro ⟨hc, ha⟩ shortage hne hfits
    cases shortage
    case sampledImage => exact hne rfl
    case capability =>
      have := hc hfits.left
      have := hfits.right
      omega
    case sizedCopy =>
      have := ha _ hfits.left
      have := hfits.right
      simp only [Op.accessLength] at *
      omega
    all_goals
      obtain ⟨ho | ho, hl⟩ := hfits
      all_goals
        have := ha _ ho
        simp only [Op.accessLength] at this
        omega
  case mpr =>
    intro h
    refine ⟨fun ho => ?_, fun op ho => ?_⟩
    · have := not_and.mp (h capability (by decide)) ho
      omega
    -- Each opcode that reads more than its length vouches for has its shortage.
    · unfold Op.accessLength
      split
      case h_1 =>
        have := not_and.mp (h matrixStore (by decide)) (.inl ho)
        omega
      case h_2 =>
        have := not_and.mp (h matrixStore (by decide)) (.inr ho)
        omega
      case h_3 =>
        have := not_and.mp (h sizedCopy (by decide)) ho
        omega
      case h_4 =>
        have := not_and.mp (h matrixLoad (by decide)) (.inl ho)
        have := hload ho (by decide)
        omega
      case h_5 =>
        have := not_and.mp (h matrixLoad (by decide)) (.inr ho)
        have := hload ho (by decide)
        omega
      case h_6 => exact Nat.zero_le _

theorem described {o : Outline}
    (h : ∀ i ∈ o.instructions.toList, ¬sampledImage.Affects o.toBinary i) : o.Described := by
  intro e _ id _ image hs
  obtain ⟨type, sampled, hbase, ho, hw, hi⟩ := hs.base
  by_contra hl
  exact h type (Binary.mem_of_baseType? hbase) ⟨ho, sampled, hw, image, hi, by omega⟩

end Shortage

namespace FunctionScan

theorem last_lt_of_foldlM {s s' : FunctionScan} {is : List Instruction} {size : Nat}
    (hx : ∀ i ∈ is, i.index < size) (hs : ∀ r ∈ s.functions, r.last < size)
    (h : is.foldlM step s = .ok s') : ∀ r ∈ s'.functions, r.last < size := by
  induction is generalizing s
  case nil =>
    cases h
    exact hs
  case cons i is hi =>
    rw [foldlM_cons] at h
    rw [forall_mem_cons] at hx
    obtain ⟨s₁, h₁, h⟩ := ok_of_bind h
    refine hi hx.right ?_ h
    cases moves_of_step h₁
    case start hfun | stay hfun => rwa [hfun]
    case finish hfun =>
      rw [hfun]
      intro r hr
      obtain hr | rfl := Array.mem_push.mp hr
      · exact hs r hr
      · exact hx.left

end FunctionScan

namespace Binary

variable {words : List Word} {b : Binary}

structure Indexes (b : Binary) : Prop where
  definitions : ∀ (id : Id) k, b.definitions[id]? = some k → k < b.instructions.size
  functions   : ∀ o, Outline.ofBinary b = .ok o → ∀ r ∈ o.functions, r.last < b.instructions.size

theorem indexes_of_ofWords (h : ofWords words = .ok b) : b.Indexes := by
  obtain ⟨frames, hr⟩ := records_of_read h
  refine ⟨fun id k hk => ?_, fun o ho => ?_⟩
  · obtain ⟨i, hi, _⟩ := (hr.definitions id k).mp hk
    exact (Array.getElem?_eq_some_iff.mp hi).1
  · obtain ⟨_, hc⟩ := Outline.of_ofBinary ho
    obtain ⟨s, hs, hfun⟩ := hc.functions
    rw [hfun]
    refine FunctionScan.last_lt_of_foldlM (fun i hi => ?_) (by simp) hs
    obtain ⟨k, hk, rfl⟩ := List.getElem_of_mem hi
    have hplace := hr.place k _ (Array.getElem?_eq_getElem (by simpa using hk))
    simpa [hplace.left] using hk

end Binary

namespace Shortage

def words : Shortage → List Word
  | capability   => [Header.magicNumber, 0x00010500, 0, 1, 0, 0x10011]
  | sizedCopy    => [Header.magicNumber, 0x00010500, 0, 1, 0, 0x20040, 1]
  | matrixLoad   => [Header.magicNumber, 0x00010500, 0, 2, 0, 0x31169, 1, 1]
  | matrixStore  => [Header.magicNumber, 0x00010500, 0, 1, 0, 0x1116A]
  | sampledImage =>
    [Header.magicNumber, 0x00010500, 0, 9, 0, 0x4000F, 4, 5, 0, 0x20013, 1, 0x3001B, 2, 1,
     0x40020, 3, 0, 2, 0x4003B, 3, 4, 0, 0x50036, 1, 5, 0, 6, 0x200F8, 7, 0x4003D, 2, 8, 4,
     0x100FD, 0x10038]

theorem ofWords_words (shortage : Shortage) : ∃ b, Binary.ofWords shortage.words = .ok b
    ∧ (∃ i ∈ b.instructions.toList, shortage.Affects b i)
    ∧ ∀ i ∈ b.instructions.toList, ∀ other, other.Affects b i → other = shortage := by
  refine exists_ok_of_decide ?_
  cases shortage <;> decide +kernel

def missed : Shortage → Fault
  | capability | matrixStore => .pastEnd 0 1
  | sizedCopy                => .pastEnd 0 2
  | matrixLoad               => .pastEnd 0 3
  | sampledImage             => .pastEnd 1 2

theorem faults_words (shortage : Shortage) :
    Module.ofWords shortage.words = .error (.fault shortage.missed) := by
  have hfault : ((Module.ofWords shortage.words).map fun _ => ())
      = .error (.fault shortage.missed) := by
    cases shortage <;> decide +kernel
  exact error_of_map hfault

end Shortage

namespace Module

theorem succeeds_or_shortage :
    (∀ words b, Binary.ofWords words = .ok b →
      ((∀ i ∈ b.instructions.toList, ∀ shortage, ¬Shortage.Affects b i shortage) →
        ∃ m, ofWords words = .ok m)
      ∧ (∀ i ∈ b.instructions.toList, i.outcome.size < i.length) ∧ b.Indexes
      ∧ ∀ i ∈ b.instructions.toList, ∀ shortage ≠ .sampledImage, Shortage.Affects b i shortage →
        ∃ fault, ofWords words = .error (.fault fault))
    ∧ ∀ shortage : Shortage, ∃ words b, Binary.ofWords words = .ok b
      ∧ (∃ i ∈ b.instructions.toList, shortage.Affects b i)
      ∧ (∀ i ∈ b.instructions.toList, ∀ other, Shortage.Affects b i other → other = shortage)
      ∧ ∃ fault, ofWords words = .error (.fault fault) := by
  refine ⟨fun words b h => ?_, fun shortage => ?_⟩
  · have hf : b.Framed := (Binary.read_valid h).framed
    have hs := ofBinary_succeeds_iff hf
    rw [ofWords_eq h]
    refine ⟨fun hn => ?_, fun i hi => (hf i hi).size_lt, Binary.indexes_of_ofWords h,
      fun i hi shortage hne ha => ?_⟩
    · have hm : Succeeds (ofBinary b) := by
        refine hs.mpr ⟨fun i hi => (Shortage.readable_iff (hf i hi)).mpr fun shortage _ =>
          hn i hi shortage, ?_⟩
        intro o ho
        obtain ⟨rfl, _⟩ := Outline.of_ofBinary ho
        exact Shortage.described fun i hi => hn i hi .sampledImage
      obtain ⟨m, hm⟩ := hm
      exact ⟨m, by rw [hm]; rfl⟩
    · cases hm : ofBinary b
      case error fault => exact ⟨fault, rfl⟩
      case ok m =>
        have hr := (hs.mp ⟨m, hm⟩).left i hi
        exact absurd ha ((Shortage.readable_iff (hf i hi)).mp hr shortage hne)
  · obtain ⟨b, hb, hone, honly⟩ := shortage.ofWords_words
    exact ⟨_, b, hb, hone, honly, _, shortage.faults_words⟩

-- An entry point that loads a sampled image of a complete type.
def loadsSampledImage : List Word :=
  [Header.magicNumber, 0x00010500, 0, 11, 0, 0x4000F, 4, 5, 0, 0x20013, 9, 0x30016, 10, 32,
   0x90019, 1, 10, 1, 0, 0, 0, 1, 0, 0x3001B, 2, 1, 0x40020, 3, 0, 2, 0x4003B, 3, 4, 0,
   0x50036, 9, 5, 0, 6, 0x200F8, 7, 0x4003D, 2, 8, 4, 0x100FD, 0x10038]

theorem succeeds_or_shortage_loadsSampledImage : ∃ b, Binary.ofWords loadsSampledImage = .ok b
    ∧ (∀ i ∈ b.instructions.toList, ∀ shortage, ¬Shortage.Affects b i shortage)
    ∧ ∃ m, ofWords loadsSampledImage = .ok m := by
  have hb : ∃ b, Binary.ofWords loadsSampledImage = .ok b
      ∧ ∀ i ∈ b.instructions.toList, ∀ shortage, ¬Shortage.Affects b i shortage :=
    exists_ok_of_decide (by decide +kernel)
  obtain ⟨b, hb, hn⟩ := hb
  exact ⟨b, hb, hn, (succeeds_or_shortage.left _ b hb).left hn⟩

end Module
end Shader
