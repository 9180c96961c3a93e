import Shader.Proofs.Analysis.Analysed

namespace Shader

open List

theorem invariant_of_foldlM {α β : Type} {g : β → α → Checked β} (inv : β → Prop)
    (step : ∀ b a b', inv b → g b a = .ok b' → inv b') {l : List α} {b b' : β} (hb : inv b)
    (h : l.foldlM g b = .ok b') : inv b' := by
  induction l generalizing b
  case nil =>
    cases h
    exact hb
  case cons a l hi =>
    rw [foldlM_cons] at h
    obtain ⟨b₁, hg, h⟩ := ok_of_bind h
    exact hi (step b a b₁ hb hg) h

-- How many descriptors an array type is for. A runtime array has none of its own.
def Binary.HasLength (b : Binary) (type : Instruction) (length : Nat) : Prop :=
  type.op? = some .typeRuntimeArray ∧ length = 0
    ∨ type.op? = some .typeArray ∧ ∃ l, b.arrayLength type = .ok l ∧ length = l.count

theorem Binary.hasLength_of_isArray {b : Binary} {type : Instruction} {length : Option ArrayLength}
    (hl : (if type.is .typeArray then some <$> b.arrayLength type else pure none) = .ok length)
    (ha : type.isArray) :
    b.HasLength type (if type.is .typeRuntimeArray then 0 else length.elim 1 (·.count)) := by
  obtain ho | ho := isArray_iff.mp ha
  case inl =>
    simp only [Instruction.is, ho, BEq.rfl, ↓reduceIte] at hl
    rw [map_eq_pure_bind] at hl
    obtain ⟨l, harray, hl⟩ := ok_of_bind hl
    cases hl
    exact .inr ⟨ho, l, harray, by simp [Instruction.is, ho]⟩
  case inr => exact .inl ⟨ho, by simp [Instruction.is, ho]⟩

structure ResourceVariable.Describes (r : ResourceVariable) (o : Outline) : Prop where
  pointee : o.pointee? r.id = .ok (some r.type)
  set     : r.set = (o.decorationsOf r.id).base.set.getD 0
  binding : r.binding = (o.decorationsOf r.id).base.binding.getD 0
  length  : ∀ type, o.definition? r.type = some type → type.isArray → o.HasLength type r.arrayLength

namespace Findings

variable {f : Findings} {id : Id} {place : StorageClass} {reached : Std.TreeSet Id}
  {images : List ImageAccess}

theorem describes_of_resource? {r : ResourceVariable} {notes : List Note}
    (h : f.resource? id place reached images = .ok (some r, notes)) : r.Describes f.toOutline := by
  unfold resource? at h
  obtain ⟨type, hp, h⟩ := ok_of_bind h
  split at h
  case h_2 => cases h
  case h_1 type =>
    split at h
    case h_2 => cases h
    case h_1 definition hd =>
      obtain ⟨base, _, h⟩ := ok_of_bind h
      split at h
      case h_2 => cases h
      case h_1 base =>
        split at h
        case h_2 => cases h
        case h_1 =>
          dsimp only at h
          split at h
          case' isTrue ha => obtain ⟨length, hl, h⟩ := ok_of_bind h
          case' isFalse ha => obtain ⟨length, hl, h⟩ := ok_of_bind h
          all_goals
            obtain ⟨kind, _, h⟩ := ok_of_bind h
            split at h
            case h_1 => cases h
            case h_2 => cases h
            case h_3 kind image =>
              split at h <;> obtain ⟨traits, _, h⟩ := ok_of_bind h <;> cases h
              all_goals
                refine ⟨hp, rfl, rfl, fun type hd' harray => ?_⟩
                cases hd.symm.trans hd'
                refine Binary.hasLength_of_isArray ?_ harray
                simpa [ha] using hl

theorem describes_of_addUsed {model : ExecutionModel} {listed : List Id} {u u' : Used}
    {i : Instruction} (hu : ∀ r ∈ u.resources, r.Describes f.toOutline)
    (h : f.addUsed model listed reached images u i = .ok u') :
    ∀ r ∈ u'.resources, r.Describes f.toOutline := by
  unfold addUsed at h
  split at h
  case h_2 =>
    cases h
    exact hu
  case h_1 id _ =>
    obtain ⟨place, _, h⟩ := ok_of_bind h
    split at h
    case h_2 =>
      cases h
      exact hu
    case h_1 place _ =>
      dsimp only at h
      split at h
      -- The storage classes of resources, then those whose variables go elsewhere.
      case h_1 | h_2 | h_3 | h_4 =>
        split at h
        case isFalse =>
          cases h
          exact hu
        case isTrue =>
          obtain ⟨⟨r, notes⟩, hr, h⟩ := ok_of_bind h
          cases h
          rw [forall_mem_append]
          refine ⟨hu, fun r' hr' => ?_⟩
          cases Option.mem_toList.mp hr'
          exact describes_of_resource? hr
      case h_5 | h_6 | h_7 =>
        split at h
        case isFalse =>
          cases h
          exact hu
        case isTrue =>
          obtain ⟨_, _, h⟩ := ok_of_bind h
          cases h
          exact hu
      case h_8 =>
        cases h
        exact hu

theorem describes_of_entryPoint? {i : Instruction} {e : EntryPoint} {notes : List Note}
    (h : f.entryPoint? i = .ok (some (e, notes))) : ∀ r ∈ e.resources, r.Describes f.toOutline := by
  unfold entryPoint? at h
  split at h
  case h_2 => cases h
  case h_1 =>
    split at h
    case h_2 => cases h
    case h_1 =>
      obtain ⟨used, hused, h⟩ := ok_of_bind h
      cases h
      exact invariant_of_foldlM (fun u : Used => ∀ r ∈ u.resources, r.Describes f.toOutline)
        (fun _ _ _ => describes_of_addUsed) (by simp) hused

end Findings

theorem Module.IsAnalysed.describes {m : Module} (h : m.IsAnalysed) {e : EntryPoint}
    (he : e ∈ m.entryPoints) :
    ∀ r ∈ e.resources, r.Describes m.toOutline := by
  obtain ⟨_, _, _, hentry⟩ := h.exists_entryPoint? he
  exact Findings.describes_of_entryPoint? hentry

end Shader
