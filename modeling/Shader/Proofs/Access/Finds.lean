import Mathlib
import Shader.Access.Image

namespace Shader

open List

namespace BranchFinds

variable {f : BranchFinds} {v v' : Id} {e e' : ArrayIndex} {hits : Set (Id × ArrayIndex)}

def Has (f : BranchFinds) (v : Id) (e : ArrayIndex) : Prop :=
  v ∈ f.found ∧ (f.index = some e ∨ f.index = some .unknown)

theorem mem_found_add : v ∈ (f.add v' e).found ↔ v ∈ f.found ∨ v = v' := by
  simp only [add]
  split
  case isTrue h =>
    rw [contains_iff_mem] at h
    exact ⟨.inl, Or.rec id (· ▸ h)⟩
  case isFalse => simp

theorem index_add_of_none (h : f.index = none) : (f.add v e).index = some e := by
  simp [add, h]

theorem index_add_of_some {old : ArrayIndex} (h : f.index = some old) :
    (f.add v e).index = some (if old = e then old else .unknown) := by
  simp [add, h]

theorem has_add : (f.add v e).Has v e := by
  refine ⟨mem_found_add.mpr (.inr rfl), ?_⟩
  cases h : f.index
  case none => exact .inl (index_add_of_none h)
  case some old =>
    rw [index_add_of_some h]
    split
    case isTrue heq => exact .inl (heq ▸ rfl)
    case isFalse => exact .inr rfl

theorem Has.add (h : f.Has v e) : (f.add v' e').Has v e := by
  refine ⟨mem_found_add.mpr (.inl h.left), ?_⟩
  obtain hi | hi := h.right
  · rw [index_add_of_some hi]
    split
    case isTrue => exact .inl rfl
    case isFalse => exact .inr rfl
  · rw [index_add_of_some hi]
    exact .inr (by simp)

structure Within (f : BranchFinds) (hits : Set (Id × ArrayIndex)) : Prop where
  nodup : f.found.Nodup
  found : ∀ v ∈ f.found, ∃ e, (v, e) ∈ hits
  index : ∀ e, f.index = some e → (∃ v, (v, e) ∈ hits) ∨ e = .unknown
    ∧ ∃ x ∈ hits, ∃ y ∈ hits, x.2 ≠ y.2

theorem Within.empty : Within {} hits :=
  ⟨nodup_nil, by simp, by simp⟩

theorem Within.add (h : f.Within hits) (hv : (v, e) ∈ hits) : (f.add v e).Within hits where
  nodup := by
    simp only [BranchFinds.add]
    split
    case isTrue => exact h.nodup
    case isFalse hn =>
      rw [contains_iff_mem] at hn
      exact concat_eq_append ▸ h.nodup.concat hn
  found := by
    intro u hu
    obtain hu | rfl := mem_found_add.mp hu
    · exact h.found u hu
    · exact ⟨e, hv⟩
  index := by
    intro e' he
    cases hi : f.index
    case none =>
      cases (index_add_of_none hi).symm.trans he
      exact .inl ⟨v, hv⟩
    case some old =>
      cases (index_add_of_some hi).symm.trans he
      split
      case isTrue heq => exact .inl ⟨v, heq ▸ hv⟩
      case isFalse hne =>
        refine .inr ⟨rfl, ?_⟩
        obtain ⟨u, hu⟩ | ⟨_, hmixed⟩ := h.index old hi
        · exact ⟨(u, old), hu, (v, e), hv, hne⟩
        · exact hmixed

structure Resolves (f : BranchFinds) (hits : Set (Id × ArrayIndex)) : Prop where
  nodup  : f.found.Nodup
  found  : ∀ v, v ∈ f.found ↔ ∃ e, (v, e) ∈ hits
  empty  : hits = ∅ → f.arrayIndex = .direct
  common : ∀ e, hits.Nonempty → (∀ x ∈ hits, x.2 = e) → f.arrayIndex = e
  mixed  : ∀ x ∈ hits, ∀ y ∈ hits, x.2 ≠ y.2 → f.arrayIndex = .unknown

theorem Within.resolves (h : f.Within hits) (hall : ∀ x ∈ hits, f.Has x.1 x.2) :
    f.Resolves hits where
  nodup  := h.nodup
  found  := fun v => ⟨h.found v, fun ⟨e, he⟩ => (hall _ he).left⟩
  empty  := by
    rintro rfl
    cases hi : f.index
    case none => simp [arrayIndex, hi]
    case some e => simpa using h.index e hi
  common := by
    rintro e ⟨x, hx⟩ hsame
    rw [arrayIndex]
    obtain hi | hi := (hall x hx).right
    · simp [hi, hsame x hx]
    · -- The element that is not known is the common one, since no two differ.
      obtain ⟨u, hu⟩ | ⟨_, y, hy, z, hz, hne⟩ := h.index _ hi
      · simp [hi, ← hsame _ hu]
      · exact absurd ((hsame y hy).trans (hsame z hz).symm) hne
  mixed  := by
    intro x hx y hy hne
    rw [arrayIndex]
    obtain hx | hx := (hall x hx).right
    · obtain hy | hy := (hall y hy).right
      · exact absurd (Option.some.inj (hx.symm.trans hy)) hne
      · simp [hy]
    · simp [hx]

end BranchFinds

def WalkPoint.element (p : WalkPoint) : ArrayIndex :=
  p.index.getD .direct

namespace Walk

variable {w : Walk} {p q : WalkPoint} {branch : Branch}

def finds (w : Walk) : Branch → BranchFinds
  | .image => w.image
  | .sampler => w.sampler

theorem finds_record : (w.record p).finds branch =
    if branch = p.branch then (w.finds branch).add p.id p.element else w.finds branch := by
  unfold record
  cases branch <;> cases p.branch <;> rfl

theorem active_record : (w.record p).active = w.active := by
  unfold record
  cases p.branch <;> rfl

theorem finished_record : (w.record p).finished = w.finished := by
  unfold record
  cases p.branch <;> rfl

theorem valid_record : (w.record p).valid = w.valid := by
  unfold record
  cases p.branch <;> rfl

def Has (w : Walk) (q : WalkPoint) : Prop :=
  (w.finds q.branch).Has q.id q.element

theorem has_record : (w.record p).Has p := by
  rw [Has, finds_record, if_pos rfl]
  exact BranchFinds.has_add

theorem Has.record (h : w.Has q) : (w.record p).Has q := by
  rw [Has, finds_record]
  split
  case isTrue => exact BranchFinds.Has.add h
  case isFalse => exact h

end Walk

end Shader
