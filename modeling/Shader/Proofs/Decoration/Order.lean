import Shader.Proofs.Decoration.Table

namespace Shader

open List

-- Steps that commute, and that may as well be taken twice, lead to the same in any order.
section

variable {α β : Type} {step : β → α → β} {l l' : List α}

theorem foldl_absorb (hcomm : ∀ a ∈ l, ∀ a' ∈ l, ∀ b, step (step b a) a' = step (step b a') a)
    (htwice : ∀ a ∈ l, ∀ b, step (step b a) a = step b a) {a : α} (ha : a ∈ l) (b : β) :
    step (l.foldl step b) a = l.foldl step b := by
  obtain ⟨before, after, rfl⟩ := append_of_mem ha
  have hperm : before ++ a :: after ~ before ++ after ++ [a] := by
    rw [append_assoc]
    exact (perm_append_singleton a after).symm.append_left before
  have hfold := hperm.foldl_eq' (fun x hx y hy b => hcomm x hx y hy b) b
  rw [hfold, foldl_append, foldl_cons, foldl_nil, htwice a ha]

theorem foldl_eq_of_mem_iff (hmem : ∀ a, a ∈ l ↔ a ∈ l')
    (hcomm : ∀ a ∈ l, ∀ a' ∈ l, ∀ b, step (step b a) a' = step (step b a') a)
    (htwice : ∀ a ∈ l, ∀ b, step (step b a) a = step b a) (b : β) :
    l.foldl step b = l'.foldl step b := by
  have hkept {k k' : List α} (hk : ∀ a ∈ k, a ∈ l) (hk' : ∀ a ∈ k', a ∈ k) (b : β) :
      k'.foldl step (k.foldl step b) = k.foldl step b := by
    induction k'
    case nil => rfl
    case cons a k' hi =>
      rw [forall_mem_cons] at hk'
      rw [foldl_cons, foldl_absorb (fun x hx y hy => hcomm x (hk x hx) y (hk y hy)) (fun x hx =>
        htwice x (hk x hx))
        hk'.left, hi hk'.right]
  have hperm : l ++ l' ~ l' ++ l := perm_append_comm
  have hswap := hperm.foldl_eq' (f := step) (fun x hx y hy b => ?_) b
  case refine_1 =>
    simp only [mem_append, ← hmem, or_self] at hx hy
    exact hcomm x hx y hy b
  rw [foldl_append, foldl_append, hkept (fun a ha => ha) fun a ha => (hmem a).mpr ha,
    hkept (fun a ha => (hmem a).mpr ha) fun a ha => (hmem a).mp ha] at hswap
  exact hswap

end

namespace FlagSet

variable {F : Type} (a b c : FlagSet F)

theorem union_right_comm : a ∪ b ∪ c = a ∪ c ∪ b := by
  show mk (a.bits ||| b.bits ||| c.bits) = mk (a.bits ||| c.bits ||| b.bits)
  rw [BitVec.or_assoc, BitVec.or_comm b.bits, BitVec.or_assoc]

theorem union_union_self : a ∪ b ∪ b = a ∪ b := by
  show mk (a.bits ||| b.bits ||| b.bits) = mk (a.bits ||| b.bits)
  rw [BitVec.or_assoc, BitVec.or_self]

theorem union_empty : a ∪ ∅ = a :=
  congrArg mk BitVec.or_zero

end FlagSet

namespace Decoration

def flags : Decoration → FlagSet DecorationFlag
  | .patch => {.patch}
  | .block => {.block}
  | .bufferBlock => {.bufferBlock}
  | .nonWritable => {.nonWritable}
  | .nonReadable => {.nonReadable}
  | .perVertex => {.perVertex}
  | .passthrough => {.passthrough}
  | .aliased => {.aliased}
  | .perTask => {.perTask}
  | .perPrimitive => {.perPrimitive}
  | .inputAttachmentIndex => {.inputAttachment}
  | _ => ∅

-- Decorations that keep one value. Offsets are merged, so they need not agree.
def isValued : Decoration → Bool
  | .location | .component | .descriptorSet | .binding | .arrayStride | .builtIn
      | .inputAttachmentIndex => true
  | _ => false

end Decoration

namespace Decorations

def mergeOffset (offset more : Option Word) : Option Word :=
  more.elim offset fun value => some (offset.getD 0 ||| value)

theorem mergeOffset_right_comm (o a b : Option Word) :
    mergeOffset (mergeOffset o a) b = mergeOffset (mergeOffset o b) a := by
  cases a <;> cases b <;> simp only [mergeOffset, Option.elim_none, Option.elim_some,
    Option.getD_some]
  case some.some a b => rw [UInt32.or_assoc, UInt32.or_comm a, UInt32.or_assoc]

theorem mergeOffset_self (o a : Option Word) :
    mergeOffset (mergeOffset o a) a = mergeOffset o a := by
  cases a <;> simp [mergeOffset, UInt32.or_assoc]

variable (x : Decorations)

section

variable {d d' : Decoration} {v v' : Option Word}

theorem add_eq (d : Decoration) (v : Option Word) : x.add d v = {
    flags := x.flags ∪ d.flags
    location := if d = .location then v else x.location
    component := if d = .component then v else x.component
    offset := mergeOffset x.offset (if d = .offset then some (v.getD 0) else none)
    set := if d = .descriptorSet then v else x.set
    binding := if d = .binding then v else x.binding
    builtIn := if d = .builtIn then v.bind fun w => BuiltIn.ofNumber? w.toNat else x.builtIn
    inputAttachmentIndex := if d = .inputAttachmentIndex then v else x.inputAttachmentIndex
    arrayStride := if d = .arrayStride then v else x.arrayStride } := by
  cases d <;> simp [add, Decoration.flags, FlagSet.union_empty, flag, addOffset, mergeOffset]

theorem add_right_comm (h : d = d' → d.isValued → v = v') :
    (x.add d v).add d' v' = (x.add d' v').add d v := by
  have hslot {α : Type} (f : Option Word → α) (a : α) {e : Decoration} (he : e.isValued) :
      (if d' = e then f v' else if d = e then f v else a) = if d = e then f v else if d' = e
        then f v' else a := by
    split_ifs with h₁ h₂
    · rw [h (h₂.trans h₁.symm) (h₂ ▸ he)]
    all_goals rfl
  simp only [add_eq, mk.injEq]
  exact ⟨FlagSet.union_right_comm .., hslot id _ rfl, hslot id _ rfl, mergeOffset_right_comm ..,
    hslot id _ rfl, hslot id _ rfl, hslot (·.bind fun w => BuiltIn.ofNumber? w.toNat) _ rfl,
    hslot id _ rfl, hslot id _ rfl⟩

theorem add_add_self (d : Decoration) (v : Option Word) : (x.add d v).add d v = x.add d v := by
  simp only [add_eq, FlagSet.union_union_self, mergeOffset_self, mk.injEq, true_and]
  refine ⟨?_, ?_, ?_, ?_, ?_, ?_, ?_⟩ <;> split_ifs <;> rfl

end

structure Within (given : Decoration → Option Word → Prop) : Prop where
  location             : ∀ w ∈ x.location, given .location (some w)
  component            : ∀ w ∈ x.component, given .component (some w)
  set                  : ∀ w ∈ x.set, given .descriptorSet (some w)
  binding              : ∀ w ∈ x.binding, given .binding (some w)
  builtIn              : ∀ b ∈ x.builtIn, ∃ w : Word, BuiltIn.ofNumber? w.toNat = some b
    ∧ given .builtIn (some w)
  inputAttachmentIndex : ∀ w ∈ x.inputAttachmentIndex, given .inputAttachmentIndex (some w)
  arrayStride          : ∀ w ∈ x.arrayStride, given .arrayStride (some w)

section

variable {x} {given given' : Decoration → Option Word → Prop}

theorem Within.empty : Within {} given := by
  constructor <;> simp

theorem Within.mono (h : x.Within given) (hg : ∀ d v, given d v → given' d v) :
    x.Within given' where
  location w hw := hg _ _ (h.location w hw)
  component w hw := hg _ _ (h.component w hw)
  set w hw := hg _ _ (h.set w hw)
  binding w hw := hg _ _ (h.binding w hw)
  builtIn b hb := by
    obtain ⟨w, hw, hs⟩ := h.builtIn b hb
    exact ⟨w, hw, hg _ _ hs⟩
  inputAttachmentIndex w hw := hg _ _ (h.inputAttachmentIndex w hw)
  arrayStride w hw := hg _ _ (h.arrayStride w hw)

theorem Within.add (h : x.Within given) {d : Decoration} {v : Option Word} (hd : given d v) :
    (x.add d v).Within given := by
  have hslot {e : Decoration} {old : Option Word} (ho : ∀ w ∈ old, given e (some w)) :
      ∀ w ∈ if d = e then v else old, given e (some w) := by
    intro w hw
    split at hw
    case isTrue he => exact he ▸ hw ▸ hd
    case isFalse => exact ho w hw
  rw [add_eq]
  refine ⟨hslot h.location, hslot h.component, hslot h.set, hslot h.binding, fun b hb => ?_,
    hslot h.inputAttachmentIndex, hslot h.arrayStride⟩
  dsimp only at hb
  split at hb
  case isTrue he =>
    obtain ⟨w, rfl, hw⟩ := Option.bind_eq_some_iff.mp hb
    exact ⟨w, hw, he ▸ hd⟩
  case isFalse => exact h.builtIn b hb

end

theorem merge_eq (group : Decorations) : x.merge group = {
    flags := x.flags ∪ group.flags
    location := group.location.or x.location
    component := group.component.or x.component
    offset := mergeOffset x.offset group.offset
    set := group.set.or x.set
    binding := group.binding.or x.binding
    builtIn := group.builtIn.or x.builtIn
    inputAttachmentIndex := group.inputAttachmentIndex.or x.inputAttachmentIndex
    arrayStride := group.arrayStride.or x.arrayStride } := by
  unfold merge mergeOffset
  cases group.offset <;> rfl

theorem merge_right_comm {g g' : Decorations} {given : Decoration → Option Word → Prop}
    (hg : g.Within given) (hg' : g'.Within given)
    (h : ∀ d v v', d.isValued → given d v → given d v' → v = v') :
    (x.merge g).merge g' = (x.merge g').merge g := by
  have hor {α : Type} {a a' : Option α} (ha : ∀ w ∈ a, ∀ w' ∈ a', w = w') (old : Option α) :
      a'.or (a.or old) = a.or (a'.or old) := by
    cases a <;> cases a' <;> simp_all
  have hslot {e : Decoration} {a a' : Option Word} (he : e.isValued)
      (ha : ∀ w ∈ a, given e (some w))
      (ha' : ∀ w ∈ a', given e (some w)) : ∀ w ∈ a, ∀ w' ∈ a', w = w' :=
    fun w hw w' hw' => Option.some.inj (h e _ _ he (ha w hw) (ha' w' hw'))
  have hbuiltIn : ∀ b ∈ g.builtIn, ∀ b' ∈ g'.builtIn, b = b' := by
    intro b hb b' hb'
    obtain ⟨w, hw, hs⟩ := hg.builtIn b hb
    obtain ⟨w', hw', hs'⟩ := hg'.builtIn b' hb'
    cases h _ _ _ rfl hs hs'
    exact Option.some.inj (hw.symm.trans hw')
  simp only [merge_eq, mk.injEq]
  exact ⟨FlagSet.union_right_comm .., hor (hslot rfl hg.location hg'.location) _,
    hor (hslot rfl hg.component hg'.component) _, mergeOffset_right_comm ..,
    hor (hslot rfl hg.set hg'.set) _,
    hor (hslot rfl hg.binding hg'.binding) _, hor hbuiltIn _,
    hor (hslot rfl hg.inputAttachmentIndex hg'.inputAttachmentIndex) _,
    hor (hslot rfl hg.arrayStride hg'.arrayStride) _⟩

theorem merge_merge_self (g : Decorations) : (x.merge g).merge g = x.merge g := by
  have hor {α : Type} (a old : Option α) : a.or (a.or old) = a.or old := by cases a <;> rfl
  simp only [merge_eq, FlagSet.union_union_self, mergeOffset_self, hor]

end Decorations

theorem DecorationSet.ext {s s' : DecorationSet} (hb : s.base = s'.base)
    (hm : ∀ index : Word, s.members[index]? = s'.members[index]?) : s = s' := by
  obtain ⟨base, members⟩ := s
  obtain ⟨base', members'⟩ := s'
  cases hb
  cases Std.ExtTreeMap.ext_getElem? hm
  rfl

namespace DecorationTarget

variable {t t' : DecorationTarget} {f g : Decorations → Decorations}

theorem on_comm (h : t.member = t'.member → ∀ x, g (f x) = f (g x)) (s : DecorationSet) :
    t'.on g (t.on f s) = t.on f (t'.on g s) := by
  obtain ⟨_, m⟩ := t
  obtain ⟨_, m'⟩ := t'
  cases m <;> cases m'
  case none.none => simp [on, DecorationSet.onBase, h rfl]
  case none.some | some.none => rfl
  case some.some m m' =>
    refine DecorationSet.ext rfl fun index => ?_
    simp only [on, Option.elim_some, DecorationSet.onMember, Std.ExtTreeMap.getElem?_insert,
      Std.ExtTreeMap.getD_insert]
    grind

theorem on_twice (h : ∀ x, f (f x) = f x) (s : DecorationSet) : t.on f (t.on f s) = t.on f s := by
  obtain ⟨_, m⟩ := t
  cases m
  case none => simp [on, DecorationSet.onBase, h]
  case some m =>
    refine DecorationSet.ext rfl fun index => ?_
    simp only [on, Option.elim_some, DecorationSet.onMember, Std.ExtTreeMap.getElem?_insert,
      Std.ExtTreeMap.getD_insert]
    grind

end DecorationTarget

namespace DecorationChange

variable {c c' : DecorationChange} (v : DecorationEntries)

theorem apply_right_comm
    (h : c.target = c'.target → ∀ x, c'.change (c.change x) = c.change (c'.change x)) :
    apply (apply v c) c' = apply (apply v c') c := by
  by_cases hid : c.target.id = c'.target.id
  case pos =>
    have hon (s : DecorationSet) : c'.target.on c'.change (c.target.on c.change s)
        = c.target.on c.change (c'.target.on c'.change s) :=
      DecorationTarget.on_comm (fun hm => h (DecorationTarget.ext hid hm)) s
    simp only [apply, hid, Function.update_self, Function.update_idem, Option.getD_some] at hon ⊢
    rw [hon]
  case neg =>
    simp only [apply, Function.update_of_ne hid, Function.update_of_ne (Ne.symm hid)]
    exact Function.update_comm hid ..

theorem apply_twice (h : ∀ x, c.change (c.change x) = c.change x) :
    apply (apply v c) c = apply v c := by
  simp only [apply, Function.update_self, Function.update_idem, Option.getD_some,
    DecorationTarget.on_twice h]

end DecorationChange

namespace Instruction

variable {i i' : Instruction}

theorem said?_congr (h : i.words = i'.words) : i.said? = i'.said? := by
  simp only [said?, op?, opcode, word?, h]

theorem group?_congr (h : i.words = i'.words) : i.group? = i'.group? := by
  simp only [group?, op?, opcode, word?, h]

theorem groupTargets_congr (h : i.words = i'.words) : i.groupTargets = i'.groupTargets := by
  simp only [groupTargets, op?, opcode, h]

theorem saying_congr (h : i.words = i'.words) : i.saying = i'.saying := by
  rw [saying, said?_congr h, saying]

theorem copies_congr (h : i.words = i'.words) (v : DecorationEntries) :
    i.copies v = i'.copies v := by
  rw [copies, group?_congr h, groupTargets_congr h, copies]

theorem mem_saying_iff {c : DecorationChange} :
    c ∈ i.saying ↔ ∃ d value, i.said? = some (c.target, d, value) ∧ c.change = (·.add d value) := by
  obtain ⟨target, change⟩ := c
  simp only [saying, mem_map, Option.mem_toList, DecorationChange.mk.injEq, Prod.exists]
  constructor
  case mp =>
    rintro ⟨_, d, value, hs, rfl, rfl⟩
    exact ⟨d, value, hs, rfl⟩
  case mpr =>
    rintro ⟨d, value, hs, rfl⟩
    exact ⟨target, d, value, hs, rfl, rfl⟩

theorem mem_copies_iff {c : DecorationChange} {v : DecorationEntries} : c ∈ i.copies v ↔
    ∃ group s, i.group? = some group ∧ v group = some s ∧ c.target ∈ i.groupTargets
      ∧ c.change = (·.merge s.base) := by
  obtain ⟨target, change⟩ := c
  cases hg : i.group?
  case none => simp [copies, hg]
  case some group =>
    cases hv : v group
    case none => simp [copies, hg, hv]
    case some s => simp [copies, hg, hv, eq_comm (b := change)]

end Instruction

def SameAnnotations (is is' : List Instruction) : Prop :=
  ∀ words, words ∈ is.map Instruction.words ↔ words ∈ is'.map Instruction.words

namespace SameAnnotations

variable {is is' : List Instruction} (h : SameAnnotations is is')

include h

theorem symm : SameAnnotations is' is :=
  fun words => (h words).symm

theorem exists_mem {i : Instruction} (hi : i ∈ is) : ∃ i' ∈ is', i'.words = i.words :=
  mem_map.mp ((h i.words).mp (mem_map_of_mem hi))

theorem mem_flatMap_iff {α : Type} {f : Instruction → List α}
    (hf : ∀ i i' : Instruction, i.words = i'.words → f i = f i') (a : α) :
    a ∈ is.flatMap f ↔ a ∈ is'.flatMap f := by
  rw [mem_flatMap, mem_flatMap]
  constructor
  case mp =>
    rintro ⟨i, hi, ha⟩
    obtain ⟨i', hi', hw⟩ := h.exists_mem hi
    exact ⟨i', hi', hf i i' hw.symm ▸ ha⟩
  case mpr =>
    rintro ⟨i', hi', ha⟩
    obtain ⟨i, hi, hw⟩ := h.symm.exists_mem hi'
    exact ⟨i, hi, hf i' i hw.symm ▸ ha⟩

end SameAnnotations

-- The annotations give a value for a decoration of the target, themselves or through a group.
inductive Gives (is : List Instruction) (target : DecorationTarget) (d : Decoration)
    (value : Option Word) : Prop
  | said {i : Instruction} : i ∈ is → i.said? = some (target, d, value) → Gives is target d value
  | copies {i j : Instruction} {group : Id} : i ∈ is → i.group? = some group →
    target ∈ i.groupTargets →
    j ∈ is → j.said? = some (⟨group, none⟩, d, value) → Gives is target d value

-- No target is given two values for one decoration, and no group is copied to a group.
structure Consistent (is : List Instruction) : Prop where
  values : ∀ target d value value', d.isValued → Gives is target d value →
    Gives is target d value' → value = value'
  groups : ∀ i ∈ is, ∀ group ∈ i.group?, ∀ j ∈ is, ∀ target ∈ j.groupTargets, target.id ≠ group

def givenValues (is : List Instruction) : List (DecorationTarget × Decoration × Option Word) :=
  is.filterMap Instruction.said? ++ is.flatMap fun i => i.groupTargets.flatMap fun target =>
    (is.filterMap Instruction.said?).filterMap fun (t, d, value) =>
      if i.group? = some t.id ∧ t.member = none then some (target, d, value) else none

theorem mem_givenValues_iff {is : List Instruction} {target : DecorationTarget} {d : Decoration}
    {value : Option Word} :
    (target, d, value) ∈ givenValues is ↔ Gives is target d value := by
  simp only [givenValues, mem_append, mem_filterMap, mem_flatMap, Option.ite_none_right_eq_some,
    Option.some.injEq, Prod.mk.injEq, Prod.exists]
  constructor
  case mp =>
    rintro (⟨i, hi, hs⟩ | ⟨i, hi, _, ht, ⟨group, _⟩, _, _, ⟨j, hj, hs⟩, ⟨hg, rfl⟩, rfl, rfl, rfl⟩)
    · exact .said hi hs
    · exact .copies hi hg ht hj hs
  case mpr =>
    rintro (⟨hi, hs⟩ | ⟨hi, hg, ht, hj, hs⟩)
    · exact .inl ⟨_, hi, hs⟩
    · exact .inr ⟨_, hi, _, ht, _, _, _, ⟨_, hj, hs⟩, ⟨hg, rfl⟩, rfl, rfl, rfl⟩

theorem consistent_iff {is : List Instruction} :
    ((givenValues is).all fun x => (givenValues is).all fun y =>
        x.1 ≠ y.1 || x.2.1 ≠ y.2.1 || !x.2.1.isValued || x.2.2 = y.2.2)
      ∧ (is.all fun i => i.group?.all fun group =>
        is.all fun j => j.groupTargets.all (·.id ≠ group))
      ↔ Consistent is := by
  simp only [all_eq_true, Bool.or_eq_true, decide_eq_true_eq, Bool.not_eq_true', Option.all_eq_true]
  constructor
  case mp =>
    rintro ⟨hv, hg⟩
    refine ⟨fun target d value value' hd h h' => ?_, hg⟩
    have heq := hv _ (mem_givenValues_iff.mpr h) _ (mem_givenValues_iff.mpr h')
    simpa [hd] using heq
  case mpr =>
    intro h
    refine ⟨fun (target, d, value) hx (target', d', value') hy => ?_, h.groups⟩
    by_cases ht : target = target' <;> by_cases hd : d = d'
      <;> simp only [ht, hd, ne_eq, not_true, not_false_eq_true, true_or, or_true, false_or]
    cases hvalued : d'.isValued
    case false => exact .inl rfl
    case true =>
      subst ht hd
      exact .inr (h.values target d value value' hvalued (mem_givenValues_iff.mp hx)
        (mem_givenValues_iff.mp hy))

instance : DecidablePred Consistent :=
  fun _ => decidable_of_iff _ consistent_iff

instance (is is' : List Instruction) : Decidable (SameAnnotations is is') :=
  decidable_of_iff
    (is.map Instruction.words ⊆ is'.map Instruction.words
    ∧ is'.map Instruction.words ⊆ is.map Instruction.words)
    ⟨fun h _ => ⟨(h.left ·), (h.right ·)⟩, fun h => ⟨fun _ => (h _).mp, fun _ => (h _).mpr⟩⟩

section

variable {is is' : List Instruction}

theorem saidEntries_eq (h : SameAnnotations is is') (hc : Consistent is) :
    saidEntries is = saidEntries is' := by
  refine foldl_eq_of_mem_iff (h.mem_flatMap_iff fun _ _ => Instruction.saying_congr) ?_ ?_ _
  case refine_1 =>
    intro c hmem c' hmem' v
    obtain ⟨i, hi, hs⟩ := mem_flatMap.mp hmem
    obtain ⟨i', hi', hs'⟩ := mem_flatMap.mp hmem'
    obtain ⟨d, value, hs, hadd⟩ := Instruction.mem_saying_iff.mp hs
    obtain ⟨d', value', hs', hadd'⟩ := Instruction.mem_saying_iff.mp hs'
    refine DecorationChange.apply_right_comm v fun ht x => ?_
    rw [hadd, hadd']
    refine x.add_right_comm fun hd hvalued => ?_
    exact hc.values c.target d value value' hvalued (.said hi hs) (.said hi' (by rw [hs', ht, hd]))
  case refine_2 =>
    intro c hmem v
    obtain ⟨i, hi, hs⟩ := mem_flatMap.mp hmem
    obtain ⟨d, value, hs, hadd⟩ := Instruction.mem_saying_iff.mp hs
    exact DecorationChange.apply_twice v fun x => hadd ▸ x.add_add_self d value

def SaidOf (is : List Instruction) (id : Id) (d : Decoration) (value : Option Word) : Prop :=
  ∃ i ∈ is, i.said? = some (⟨id, none⟩, d, value)

theorem within_apply {i : Instruction} {c : DecorationChange} {v : DecorationEntries} (hi : i ∈ is)
    (hc : c ∈ i.saying) (hv : ∀ id s, v id = some s → s.base.Within (SaidOf is id)) :
    ∀ id s, DecorationChange.apply v c id = some s → s.base.Within (SaidOf is id) := by
  intro id s hs
  by_cases hid : id = c.target.id
  case neg =>
    rw [DecorationChange.apply, Function.update_of_ne hid] at hs
    exact hv id s hs
  case pos =>
    obtain ⟨⟨_, member⟩, change⟩ := c
    obtain ⟨d, value, hsaid, hadd⟩ := Instruction.mem_saying_iff.mp hc
    obtain rfl : id = _ := hid
    obtain rfl : change = _ := hadd
    rw [DecorationChange.apply, Function.update_self] at hs
    cases hs
    have hold : ((v id).getD {}).base.Within (SaidOf is id) := by
      cases hvid : v id
      case none => exact .empty
      case some s => exact hv id s hvid
    cases member
    case none => exact hold.add ⟨i, hi, hsaid⟩
    case some => exact hold

theorem within_saidEntries : ∀ id s, saidEntries is id = some s → s.base.Within (SaidOf is id) := by
  refine foldlRecOn (motive := fun v : DecorationEntries => ∀ id s, v id = some s →
    s.base.Within (SaidOf is id))
    _ _ ?_ ?_
  case refine_1 => simp
  case refine_2 =>
    intro v hv c hc
    obtain ⟨i, hi, hc⟩ := mem_flatMap.mp hc
    exact within_apply hi hc hv

-- As groups are not changed while they are copied, what is copied can be told beforehand.
theorem foldl_copyGroup_eq
    (hg : ∀ i ∈ is, ∀ group ∈ i.group?, ∀ j ∈ is, ∀ target ∈ j.groupTargets, target.id ≠ group)
    (v : DecorationEntries) :
    is.foldl Instruction.copyGroup v = (is.flatMap (·.copies v)).foldl DecorationChange.apply
      v := by
  have hfold {js : List Instruction} (hjs : ∀ j ∈ js, j ∈ is) {w : DecorationEntries}
      (hw : ∀ i ∈ is, ∀ group ∈ i.group?, w group = v group) :
      js.foldl Instruction.copyGroup w = (js.flatMap (·.copies v)).foldl DecorationChange.apply
        w := by
    induction js generalizing w
    case nil => rfl
    case cons j js hi =>
      rw [forall_mem_cons] at hjs
      have hcopies : j.copies w = j.copies v := by
        have hgroup : j.group?.bind w = j.group?.bind v := by
          cases hj : j.group?
          case none => rfl
          case some group => exact hw j hjs.left group hj
        rw [Instruction.copies, hgroup, Instruction.copies]
      rw [foldl_cons, flatMap_cons, foldl_append, Instruction.copyGroup, hcopies]
      refine hi hjs.right fun i hi group hgroup => ?_
      rw [DecorationChange.foldl_apply_of_ne, hw i hi group hgroup]
      intro c hc
      obtain ⟨_, _, _, _, ht, _⟩ := Instruction.mem_copies_iff.mp hc
      exact hg i hi group hgroup j hjs.left c.target ht
  exact hfold (fun _ hj => hj) fun _ _ _ _ => rfl

theorem foldl_copies_eq (h : SameAnnotations is is') (hc : Consistent is) :
    (is.flatMap (·.copies (saidEntries is))).foldl DecorationChange.apply (saidEntries is)
      = (is'.flatMap (·.copies (saidEntries is))).foldl DecorationChange.apply
        (saidEntries is) := by
  refine foldl_eq_of_mem_iff (h.mem_flatMap_iff fun _ _ hw => Instruction.copies_congr hw _) ?_ ?_ _
  case refine_1 =>
    intro c hmem c' hmem' v
    obtain ⟨i, hi, hs⟩ := mem_flatMap.mp hmem
    obtain ⟨i', hi', hs'⟩ := mem_flatMap.mp hmem'
    obtain ⟨group, s, hg, hs, ht, hmerge⟩ := Instruction.mem_copies_iff.mp hs
    obtain ⟨group', s', hg', hs', ht', hmerge'⟩ := Instruction.mem_copies_iff.mp hs'
    refine DecorationChange.apply_right_comm v fun heq x => ?_
    rw [hmerge, hmerge']
    -- Both groups give their values to the same target.
    have hw : s.base.Within (Gives is c.target) :=
      (within_saidEntries group s hs).mono fun d value ⟨j, hj, hsaid⟩ => .copies hi hg ht hj hsaid
    have hw' : s'.base.Within (Gives is c.target) :=
      (within_saidEntries group' s' hs').mono fun d value ⟨j, hj, hsaid⟩ =>
        .copies hi' hg' (heq ▸ ht') hj hsaid
    exact x.merge_right_comm hw hw' (hc.values c.target)
  case refine_2 =>
    intro c hmem v
    obtain ⟨i, hi, hs⟩ := mem_flatMap.mp hmem
    obtain ⟨group, s, _, _, _, hmerge⟩ := Instruction.mem_copies_iff.mp hs
    exact DecorationChange.apply_twice v fun x => hmerge ▸ x.merge_merge_self s.base

theorem Consistent.groups_of_same (hc : Consistent is) (h : SameAnnotations is is') :
    ∀ i ∈ is', ∀ group ∈ i.group?, ∀ j ∈ is', ∀ target ∈ j.groupTargets, target.id ≠ group := by
  intro i' hi' group hgroup j' hj' target ht
  obtain ⟨i, hi, hiw⟩ := h.symm.exists_mem hi'
  obtain ⟨j, hj, hjw⟩ := h.symm.exists_mem hj'
  exact hc.groups i hi group (Instruction.group?_congr hiw ▸ hgroup) j hj target
    (Instruction.groupTargets_congr hjw ▸ ht)

theorem DecorationTable.entries_eq_of_same {t t' : DecorationTable} (h : SameAnnotations is is')
    (hc : Consistent is) (ht : ofAnnotations is = .ok t) (ht' : ofAnnotations is' = .ok t') :
    t.entries = t'.entries := by
  rw [entries_of_ofAnnotations ht, entries_of_ofAnnotations ht', ← saidEntries_eq h hc,
    foldl_copyGroup_eq hc.groups, foldl_copyGroup_eq (hc.groups_of_same h), foldl_copies_eq h hc]

end
end Shader
