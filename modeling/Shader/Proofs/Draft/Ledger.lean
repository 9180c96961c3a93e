import Shader.Proofs.Draft.Form

namespace Shader

open List

-- Where a ledger starts: a draft, and definitions that are held and do not stand in it.
structure Opening where
  draft : Draft
  held : List Definition

-- `d` was made from `base`, and the definitions in `held` are still to be placed.
inductive Ledger (base : Opening) : Draft → List Definition → Prop
  | start : Ledger base base.draft base.held
  | perm {d held held'} : Ledger base d held → held ~ held' → Ledger base d held'
  | allocate {d held} : Ledger base d held → d.bound.toNat < Word.greatest →
    Ledger base { d with bound := d.bound + 1 } ((d.bound, none) :: held)
  | setType {d id held} (type : Id) : Ledger base d ((id, none) :: held) →
    Ledger base (d.setResultType id type) ((id, some type) :: held)
  | push {d s sec held} : Ledger base d (s.defines ++ held) → s.WellFormed → s.BelongsTo sec →
    s.Fits →
    Ledger base (d.push s sec) held
  | pushFunction {d f held} : Ledger base d (f.defines ++ held) → f.WellFormed →
    Ledger base (d.pushFunction f) held
  | insert {d b held} {p : Position} {inserted : List Statement} :
    Ledger base d (inserted.flatMap Statement.defines ++ held) → d.block? p = some b →
    (∀ s ∈ inserted, s.IsCode) → Ledger base (d.insertBefore p inserted) held
  | replaceOperand {d held} (p : Position) (k : Nat) (w : Word) : Ledger base d held →
    Ledger base (d.replaceOperand p k w) held
  | guard {d held target test condition labels merged} {p : Position} :
    Ledger base d (guardDefines test labels merged ++ held) → d.statement? p = some target →
    MergedResult.Of target merged → (∀ s ∈ test, s.IsCode) →
    Ledger base
      (d.onFunction p.function (·.guardAt p.block p.index test condition labels merged)) held
  | list {d held} (new : List Id) : Ledger base d held →
      Ledger base (Linking.listVariables new d) held

namespace Draft

structure Sound (d : Draft) : Prop where
  nodup : (d.definitions.map Prod.fst).Nodup
  below : ∀ x ∈ d.definitions, x.1 < d.bound

def Indexed (d : Draft) : Prop :=
  ∀ id type, d.resultTypes[id]? = some type ↔ (id, some type) ∈ d.definitions

@[simp]
theorem listVariables_definitions (d : Draft) (new : List Id) :
    (Linking.listVariables new d).definitions = d.definitions := by
  unfold Linking.listVariables
  split
  · simp only [definitions_eq, declarations, flatMap_append, flatMap_map]
    rfl
  · rfl

@[simp]
theorem listVariables_bound (d : Draft) (new : List Id) :
    (Linking.listVariables new d).bound = d.bound := by
  unfold Linking.listVariables
  split <;> rfl

@[simp]
theorem listVariables_resultTypes (d : Draft) (new : List Id) :
    (Linking.listVariables new d).resultTypes = d.resultTypes := by
  unfold Linking.listVariables
  split <;> rfl

theorem guard_definitions {d : Draft} {p : Position} {target : Statement} {test : List Statement}
    {condition : Id} {labels : GuardLabels} {merged : Option MergedResult}
    (ht : d.statement? p = some target) (hm : MergedResult.Of target merged) :
    (d.onFunction p.function (·.guardAt p.block p.index test condition labels merged)).definitions
      ~ d.definitions ++ guardDefines test labels merged := by
  obtain ⟨b, hb, ht⟩ := Option.bind_eq_some_iff.mp ht
  obtain ⟨f, hf, hb⟩ := Option.bind_eq_some_iff.mp hb
  exact onFunction_definitions hf (FunctionDraft.guardAt_defines hb ht hm)

end Draft

namespace Opening

variable (o : Opening)

structure Sound : Prop where
  nodup : ((o.draft.definitions ++ o.held).map Prod.fst).Nodup
  below : ∀ x ∈ o.draft.definitions ++ o.held, x.1 < o.draft.bound

def Indexed : Prop :=
  ∀ id type, o.draft.resultTypes[id]? = some type ↔ (id, some type) ∈ o.draft.definitions ++ o.held

end Opening

def idsBetween (b c : Id) : List Id :=
  (range' b.toNat (c.toNat - b.toNat)).map UInt32.ofNat

theorem mem_idsBetween_iff {b c id : Id} (h : b ≤ c) : id ∈ idsBetween b c ↔ b ≤ id ∧ id < c := by
  simp only [idsBetween, mem_map, mem_range'_1, UInt32.le_iff_toNat_le, UInt32.lt_iff_toNat_lt]
    at h ⊢
  constructor
  case mp =>
    rintro ⟨n, hn, rfl⟩
    have := c.toNat_lt
    rw [UInt32.toNat_ofNat_of_lt' (by simp [UInt32.size]; omega)]
    omega
  case mpr => exact fun hid => ⟨id.toNat, by omega, by simp⟩

theorem nodup_idsBetween (b c : Id) : (idsBetween b c).Nodup := by
  have hr : (range' b.toNat (c.toNat - b.toNat)).Nodup := nodup_range'
  refine hr.map_on fun m hm n hn h => ?_
  rw [mem_range'_1] at hm hn
  have := c.toNat_lt
  have h := congrArg UInt32.toNat h
  rwa [UInt32.toNat_ofNat_of_lt' (by simp [UInt32.size]; omega),
    UInt32.toNat_ofNat_of_lt' (by simp [UInt32.size]; omega)] at h

theorem toNat_bound_succ {b : Word} (h : b.toNat < Word.greatest) :
    (b + 1).toNat = b.toNat + 1 := by
  simp only [Word.greatest] at h
  simp
  omega

theorem idsBetween_succ {b c : Id} (h : b ≤ c) (hc : c.toNat < Word.greatest) :
    idsBetween b (c + 1) = idsBetween b c ++ [c] := by
  rw [UInt32.le_iff_toNat_le] at h
  simp only [idsBetween, toNat_bound_succ hc]
  rw [Nat.succ_sub h, range'_concat]
  simp [Nat.add_sub_cancel' h]

namespace Ledger

variable {base : Opening} {d : Draft} {held : List Definition}

theorem moved {before after new : List Definition} (h : after ~ before ++ new) :
    after ++ held ~ before ++ (new ++ held) := by
  rw [← append_assoc]
  exact h.append_right held

theorem bound_le (h : Ledger base d held) : base.draft.bound ≤ d.bound := by
  induction h
  case start => exact UInt32.le_refl _
  case allocate hb hi =>
    rw [UInt32.le_iff_toNat_le] at hi ⊢
    simp only [toNat_bound_succ hb]
    omega
  case push hi => simpa using hi
  case list hi => simpa using hi
  all_goals assumption

theorem ids (h : Ledger base d held) :
    (d.definitions ++ held).map Prod.fst
      ~ (base.draft.definitions ++ base.held).map Prod.fst ++ idsBetween base.draft.bound
        d.bound := by
  induction h
  case start => simp [idsBetween]
  case perm hp hi => exact ((hp.append_left _).map _).symm.trans hi
  case allocate d held h hb hi =>
    rw [idsBetween_succ h.bound_le hb, ← append_assoc]
    refine Perm.trans ?_ (hi.append_right _)
    simp only [map_append, map_cons, append_assoc]
    exact (perm_append_singleton _ _).symm.append_left _
  case setType hi => simpa [Draft.setResultType, Draft.definitions_eq, Draft.declarations] using hi
  case push hi =>
    simp only [Draft.bound_push]
    exact ((moved (Draft.push_definitions _ _)).map _).trans hi
  case pushFunction hi =>
    exact ((moved (.of_eq (Draft.pushFunction_definitions _))).map _).trans hi
  case insert hb _ hi => exact ((moved (Draft.insertBefore_definitions _ hb)).map _).trans hi
  case replaceOperand hi => rwa [Draft.replaceOperand_definitions]
  case guard ht hm _ hi => exact ((moved (Draft.guard_definitions ht hm)).map _).trans hi
  case list hi => simpa using hi

theorem nodup (h : Ledger base d held) (hb : base.Sound) :
    ((d.definitions ++ held).map Prod.fst).Nodup := by
  refine h.ids.nodup_iff.mpr <| nodup_append.mpr ⟨hb.nodup, nodup_idsBetween _ _, ?_⟩
  intro a ha c hc heq
  obtain ⟨x, hx, rfl⟩ := mem_map.mp ha
  have hle := (mem_idsBetween_iff h.bound_le).mp hc |>.left
  exact absurd (hb.below x hx) (UInt32.not_lt.mpr (heq ▸ hle))

theorem mem_or_between (h : Ledger base d held) {x : Definition} (hx : x ∈ d.definitions ++ held) :
    x.1 ∈ (base.draft.definitions ++ base.held).map Prod.fst ∨ base.draft.bound ≤ x.1
      ∧ x.1 < d.bound := by
  have hx := h.ids.mem_iff.mp (mem_map_of_mem hx)
  rwa [mem_append, mem_idsBetween_iff h.bound_le] at hx

theorem lt_bound (h : Ledger base d held) (hb : base.Sound) {x : Definition}
    (hx : x ∈ d.definitions ++ held) : x.1 < d.bound := by
  obtain hx | hx := h.mem_or_between hx
  · obtain ⟨y, hy, heq⟩ := mem_map.mp hx
    exact heq ▸ UInt32.lt_of_lt_of_le (hb.below y hy) h.bound_le
  · exact hx.right

theorem sound (h : Ledger base d held) (hb : base.Sound) : d.Sound where
  nodup := by
    have := h.nodup hb
    rw [map_append] at this
    exact this.of_append_left
  below _ hx := h.lt_bound hb (mem_append_left _ hx)

theorem definitions_subset (h : Ledger base d held) : base.draft.definitions ⊆ d.definitions := by
  have step {l l' new : List Definition} (hi : base.draft.definitions ⊆ l) (h : l' ~ l ++ new) :
      base.draft.definitions ⊆ l' :=
    fun x hx => h.mem_iff.mpr (mem_append_left _ (hi hx))
  induction h
  case start => exact fun _ => id
  case push hi => exact step hi (Draft.push_definitions _ _)
  case pushFunction hi => exact step hi (.of_eq (Draft.pushFunction_definitions _))
  case insert hb _ hi => exact step hi (Draft.insertBefore_definitions _ hb)
  case replaceOperand hi => rwa [Draft.replaceOperand_definitions]
  case guard ht hm _ hi => exact step hi (Draft.guard_definitions ht hm)
  case list hi => rwa [Draft.listVariables_definitions]
  all_goals assumption

theorem wellFormed (h : Ledger base d held) (hb : base.draft.WellFormed) : d.WellFormed := by
  induction h
  case start => exact hb
  case perm hi => exact hi
  case allocate hi => exact ⟨hi.sections, hi.fits, hi.functions⟩
  case setType hi => exact ⟨hi.sections, hi.fits, hi.functions⟩
  case push hs hsec hf hi => exact hi.push hs hsec hf
  case pushFunction hf hi => exact hi.pushFunction hf
  case insert hs hi => exact hi.insertBefore hs
  case replaceOperand hi => exact hi.replaceOperand
  case guard p _ ht hm hs hi =>
    obtain ⟨b, hb, ht⟩ := Option.bind_eq_some_iff.mp ht
    refine hi.onFunction fun f hf hw => ?_
    simp only [Draft.block?, hf, Option.bind_some] at hb
    exact hw.guardAt hb ht hm hs
  case list hi => exact hi.listVariables

-- Types are recorded when ids are allocated, so the table also has the types of held values.
theorem index (h : Ledger base d held) (hb : base.Sound) (hx : base.Indexed) (id type : Id) :
    d.resultTypes[id]? = some type ↔ (id, some type) ∈ d.definitions ++ held := by
  have step {t : Std.ExtTreeMap Id Id} {l l' new held : List Definition}
      (hi : t[id]? = some type ↔ (id, some type) ∈ l ++ (new ++ held)) (h : l' ~ l ++ new) :
      t[id]? = some type ↔ (id, some type) ∈ l' ++ held :=
    hi.trans (moved h).mem_iff.symm
  induction h
  case start => exact hx id type
  case perm hp hi => exact hi.trans (hp.append_left _).mem_iff
  case allocate hi => exact hi.trans (by simp [Draft.definitions_eq, Draft.declarations])
  case setType d id' held type' h hi =>
    -- The id is held once, so giving it a type disturbs no other entry.
    have hn : id' ∉ (d.definitions ++ held).map Prod.fst := by
      have := h.nodup hb
      rw [map_append, map_cons, nodup_middle, ← map_append] at this
      exact (nodup_cons.mp this).left
    have hmem (t : Option Id) : (id, some type) ∈ d.definitions ++ (id', t) :: held
        ↔ id' = id ∧ t = some type ∨ (id, some type) ∈ d.definitions ++ held := by
      simp only [mem_append, mem_cons, Prod.mk.injEq]
      grind
    rw [hmem] at hi
    refine Iff.trans ?_ (hmem (some type')).symm
    simp only [Draft.setResultType, Std.ExtTreeMap.getElem?_insert]
    by_cases heq : id' = id
    case pos =>
      subst heq
      have hne : (id', some type) ∉ d.definitions ++ held := fun h => hn (mem_map.mpr ⟨_, h, rfl⟩)
      simp only [hne, or_false]
      simp
    case neg => simpa [heq] using hi
  case push hi => exact step (by simpa using hi) (Draft.push_definitions _ _)
  case pushFunction hi => exact step hi (.of_eq (Draft.pushFunction_definitions _))
  case insert hb _ hi => exact step hi (Draft.insertBefore_definitions _ hb)
  case replaceOperand hi => rwa [Draft.replaceOperand_definitions]
  case guard ht hm _ hi => exact step hi (Draft.guard_definitions ht hm)
  case list hi => simpa using hi

theorem noteType {s : Statement} (h : Ledger base d (s.resultId.toList.map (·, none) ++ held)) :
    Ledger base (d.noteType s) (s.defines ++ held) := by
  unfold Draft.noteType Statement.defines
  cases hi : s.resultId <;> cases ht : s.resultType <;> simp [hi] at h ⊢
  case some.some => exact h.setType _
  all_goals exact h

end Ledger
end Shader
