import Shader.Proofs.Type.Size

namespace Shader

open List

section

variable {n m : Nat}

theorem capped_of_capped_le (h : capped n ≤ m) (hm : m < Word.greatest) : capped n = n := by
  unfold capped at *
  omega

theorem capped_le_four_mul {n m : Nat} (h : n ≤ 4 * m) : capped n ≤ 4 * capped m := by
  unfold capped
  omega

end

-- `p` takes this many locations from `location` on, and this many slots, which are there and in
-- order.
structure Placement.Fills (p : Placement) (location size count : Nat) : Prop where
  locations : p.locations = size
  length    : p.slots.length = count
  ascending : p.slots.Pairwise (·.slot < ·.slot)
  within    : ∀ s ∈ p.slots, 4 * location ≤ s.slot ∧ s.slot < 4 * (location + size)

namespace Placement.Fills

variable {p q : Placement} {location a b m n : Nat}

theorem empty (location : Nat) : Fills {} location 0 0 :=
  ⟨rfl, rfl, .nil, by simp⟩

theorem of_eq (h : p.Fills location a m) (hl : q.locations = p.locations) (hs : q.slots = p.slots) :
    q.Fills location a m :=
  ⟨hl ▸ h.locations, hs ▸ h.length, hs ▸ h.ascending, hs ▸ h.within⟩

theorem append (hp : p.Fills location a m) (hq : q.Fills (location + a) b n)
    (hle : a + b ≤ Word.greatest) : (p.append q).Fills location (a + b) (m + n) where
  locations := by
    rw [Placement.append, hp.locations, hq.locations]
    exact capped_of_le hle
  length := by rw [Placement.append, length_append, hp.length, hq.length]
  ascending := by
    refine pairwise_append.mpr ⟨hp.ascending, hq.ascending, fun s hs t ht => ?_⟩
    exact Nat.lt_of_lt_of_le (hp.within s hs).right (hq.within t ht).left
  within s hs := by
    rw [Placement.append, mem_append] at hs
    cases hs
    case inl hs =>
      have := hp.within s hs
      omega
    case inr hs =>
      have := hq.within s hs
      omega

theorem flatMap {ps : List Placement}
    (h : ∀ k (p : Placement), ps[k]? = some p → p.Fills (location + k * a) a m) :
    Fills { locations := ps.length * a, slots := ps.flatMap (·.slots) } location (ps.length * a)
      (ps.length * m) := by
  induction ps generalizing location
  case nil => simpa using empty location
  case cons p ps hi =>
    have hp : p.Fills location a m := by simpa using h 0 p rfl
    have hrest (k : Nat) (q : Placement) (hq : ps[k]? = some q) :
        q.Fills (location + a + k * a) a m := by
      have := h (k + 1) q (by simpa using hq)
      rwa [Nat.succ_mul, Nat.add_comm (k * a), ← Nat.add_assoc] at this
    have hps := hi hrest
    refine ⟨rfl, ?_, ?_, ?_⟩
    · rw [flatMap_cons, length_append, hp.length, hps.length, length_cons, Nat.succ_mul,
        Nat.add_comm]
    · rw [flatMap_cons]
      refine pairwise_append.mpr ⟨hp.ascending, hps.ascending, fun s hs t ht => ?_⟩
      exact Nat.lt_of_lt_of_le (hp.within s hs).right (hps.within t ht).left
    · intro s hs
      rw [flatMap_cons, mem_append] at hs
      have hlen : (p :: ps).length * a = ps.length * a + a := Nat.add_one_mul ..
      rw [hlen]
      cases hs
      case inl hs =>
        have := hp.within s hs
        omega
      case inr hs =>
        have := hps.within s hs
        omega

end Placement.Fills

theorem Shape.componentsOfAll_le {ss : List Shape}
    (h : ∀ s ∈ ss, s.components false ≤ 4 * s.locations false) :
    componentsOfAll ss ≤ 4 * locationsOfAll ss := by
  induction ss
  case nil => simp [componentsOfAll]
  case cons s ss hi =>
    rw [forall_mem_cons] at h
    rw [componentsOfAll, locationsOfAll]
    refine capped_le_four_mul ?_
    rw [Nat.mul_add]
    exact Nat.add_le_add h.left (hi h.right)

def Instruction.IsScalar (i : Instruction) : Prop :=
  i.op? = some .typeBool
    ∨ (i.op? = some .typeInt ∨ i.op? = some .typeFloat) ∧ ∃ w ∈ i.word? 2, 8 ≤ w.toNat
    ∧ w.toNat ≤ 64

instance : DecidablePred Instruction.IsScalar :=
  fun _ => inferInstanceAs (Decidable (_ ∨ _ ∧ _))

namespace Binary

-- How the types of values are declared that can be passed from one stage to the next: scalars,
-- vectors of one to four of them, matrices of such vectors, arrays and structs.
def InInterface (b : Binary) (i : Instruction) : Prop :=
  i.IsScalar
    ∨ i.op? = some .typeVector
      ∧ (∃ j ∈ (i.word? 2).bind b.definition?, j.IsScalar)
      ∧ (∃ n ∈ i.word? 3, 1 ≤ n.toNat ∧ n.toNat ≤ 4)
    ∨ i.op? = some .typeMatrix ∧ (∃ j ∈ (i.word? 2).bind b.definition?, j.op? = some .typeVector)
    ∨ i.op? = some .typeArray
    ∨ i.op? = some .typeStruct

instance (b : Binary) : DecidablePred b.InInterface :=
  fun _ => inferInstanceAs (Decidable (_ ∨ _ ∧ _ ∧ _ ∨ _ ∧ _ ∨ _ ∨ _))

variable {b : Binary} {depth k : Nat} {x id : Id} {i j : Instruction} {s : Shape}

theorem widthOf?_of_isScalar (hd : b.definition? x = some j) (hj : j.IsScalar) :
    ∃ w, b.widthOf? x = .ok (some w) ∧ 1 ≤ w ∧ w ≤ 64 := by
  obtain ho | ⟨ho, w, hw, hle⟩ := hj
  · exact ⟨1, by simp [widthOf?, hd, Instruction.bitWidth?, ho, pure, Except.pure], by omega⟩
  · refine ⟨w.toNat, ?_, by omega, hle.right⟩
    rw [Option.mem_def] at hw
    obtain ho | ho := ho
    all_goals
      simp [widthOf?, hd, Instruction.bitWidth?, ho, Instruction.word, hw, bind, Except.bind, pure,
        Except.pure]

-- A scalar of 64 bits takes two components.
def perScalar (width : Nat) : Nat :=
  if width = 64 then 2 else 1

theorem components_of_isScalar {w : Nat} (hd : b.definition? x = some j) (hj : j.IsScalar)
    (hw : b.widthOf? x = .ok (some w)) (hs : b.shapeTo (depth + 1) x = .ok s) :
    s.components false = perScalar w ∧ s.locations false = 1 := by
  have hwidth : j.bitWidth? = .ok (some w) := by simpa [widthOf?, hd] using hw
  unfold Instruction.bitWidth? at hwidth
  cases shapes_of_shapeTo hd hs
  case number n ho hn =>
    have hn : j.word 2 = .ok n := by rw [Instruction.word, hn]
    obtain rfl : n.toNat = w := by
      obtain ho | ho := ho
      all_goals
        simp only [ho, hn] at hwidth
        exact Option.some.inj (Except.ok.inj hwidth)
    exact ⟨rfl, rfl⟩
  case bool ho =>
    simp only [ho] at hwidth
    obtain rfl : 1 = w := Option.some.inj (Except.ok.inj hwidth)
    exact ⟨rfl, rfl⟩
  -- No other type is a scalar.
  all_goals simp_all [Instruction.IsScalar, measured]

theorem size_le_four_mul {n w : Nat} (hn : 1 ≤ n ∧ n ≤ 4) (hw : 1 ≤ w ∧ w ≤ 64) :
    n * perScalar w ≤ 4 * Shape.vectorLocations n (some w) := by
  have hle : w * n ≤ 64 * 4 := Nat.mul_le_mul hw.right hn.right
  have hpos : 1 ≤ w * n := Nat.mul_pos hw.left hn.left
  rw [Shape.vectorLocations, Option.getD_some, cappedMul,
    capped_of_le (by unfold Word.greatest; omega)]
  unfold perScalar Word.greatest
  split
  case isTrue h => subst h; omega
  case isFalse => omega

theorem vectorLocations_one {w : Nat} (hw : 1 ≤ w ∧ w ≤ 64) :
    Shape.vectorLocations 1 (some w) = 1 := by
  rw [Shape.vectorLocations, Option.getD_some, cappedMul,
    capped_of_le (by unfold Word.greatest; omega)]
  unfold Word.greatest
  omega

theorem scalarSlots_fills {n w location : Nat} {slots : List InterfaceSlot}
    (hw : b.widthOf? x = .ok (some w)) (hn : 1 ≤ n ∧ n ≤ 4) (hle : 1 ≤ w ∧ w ≤ 64)
    (hl : location < locationLimit) (h : b.scalarSlots x n location 0 = .ok slots) :
    Placement.Fills { locations := Shape.vectorLocations n (some w), slots } location
      (Shape.vectorLocations n (some w)) (n * perScalar w) := by
  unfold locationLimit at hl
  have hsize := size_le_four_mul hn hle
  have hfirst : (fittingMul? location 4).bind (fittingAdd? · 0) = some (location * 4) := by
    rw [fittingMul?, if_pos (by unfold Word.greatest; omega), Option.bind_some, fittingAdd?,
      if_pos (by unfold Word.greatest; omega), Nat.add_zero]
  obtain ⟨_, hw', h⟩ := ok_of_bind h
  obtain rfl := Except.ok.inj (hw'.symm.trans hw)
  obtain ⟨numeric, _, h⟩ := ok_of_bind h
  simp only [hfirst, Option.getD_some, Nat.min_eq_left hn.right] at h
  have hall : (range (n * perScalar w)).filterMap (fittingAdd? (location * 4))
      = (range (n * perScalar w)).map (location * 4 + ·) := by
    refine filterMap_eq_map_iff_forall_eq_some.mpr fun k hk => if_pos ?_
    have hn' : n * perScalar w ≤ 4 * 2 :=
      Nat.mul_le_mul hn.right (by unfold perScalar; split <;> decide)
    have hk := mem_range.mp hk
    unfold Word.greatest
    omega
  rw [show (if w = 64 then 2 else 1) = perScalar w from rfl, hall, map_map] at h
  obtain rfl := Except.ok.inj h
  refine ⟨rfl, by simp, ?_, ?_⟩
  · rw [pairwise_map]
    exact pairwise_lt_range.imp fun h => Nat.add_lt_add_left h _
  · intro s hs
    obtain ⟨k, hk, rfl⟩ := mem_map.mp hs
    have hk := mem_range.mp hk
    dsimp only [Function.comp_apply]
    omega

theorem Shapes.of_vector_isScalar {n : Word} (hs : b.Shapes depth i s)
    (ho : i.op? = some .typeVector) (hn : i.word? 3 = some n)
    (hj : (i.word? 2).bind b.definition? = some j) (hscalar : j.IsScalar)
    (hparts : ∀ x ∈ i.parts, b.Built b.InInterface depth x) :
    ∃ x w e, i.word? 2 = some x ∧ b.widthOf? x = .ok (some w) ∧ (1 ≤ w ∧ w ≤ 64)
      ∧ e.components false = perScalar w ∧ s = .vector n.toNat (some w) e := by
  obtain ⟨x, _, width, e, hx, hn', hwidth, he, rfl⟩ := hs.of_vector ho
  cases hn.symm.trans hn'
  rw [hx, Option.bind_some] at hj
  obtain ⟨w, hw, hle⟩ := widthOf?_of_isScalar hj hscalar
  cases hwidth.symm.trans hw
  cases hparts x (mem_parts_of_word (.inl ho) hx)
  exact ⟨x, w, e, hx, hw, hle, (components_of_isScalar hj hscalar hw he).left, rfl⟩

theorem Built.components_le (h : b.Built b.InInterface k id) (hs : b.shapeTo k id = .ok s) :
    s.components false ≤ 4 * s.locations false := by
  induction h generalizing s
  case mk k id i hd hi hparts ih =>
    have hshape := shapes_of_shapeTo hd hs
    have hpart {x : Id} {e : Shape} (hx : x ∈ i.parts) (he : b.shapeTo k x = .ok e) (n : Nat) :
        cappedMul n (e.components false) ≤ 4 * cappedMul n (e.locations false) := by
      refine capped_le_four_mul ?_
      rw [Nat.mul_left_comm]
      exact Nat.mul_le_mul_left n (ih x hx he)
    obtain hi | ⟨ho, ⟨j, hj, hscalar⟩, n, hn, hle⟩ | ⟨ho, _⟩ | ho | ho := hi
    · obtain ⟨w, hw, _⟩ := widthOf?_of_isScalar hd hi
      obtain ⟨hc, hl⟩ := components_of_isScalar hd hi hw hs
      rw [hc, hl]
      unfold perScalar
      split <;> omega
    · obtain ⟨x, w, e, _, _, hw, hc, rfl⟩ := hshape.of_vector_isScalar ho hn hj hscalar hparts
      rw [Shape.components, hc]
      exact Nat.le_trans (Nat.min_le_left ..) (size_le_four_mul hle hw)
    · obtain ⟨x, n, e, hx, _, he, rfl⟩ := hshape.of_matrix ho
      exact hpart (mem_parts_of_word (.inr (.inl ho)) hx) he n.toNat
    · obtain ⟨x, length, e, hx, _, he, rfl⟩ := hshape.of_array ho
      exact hpart (mem_parts_of_word (.inr (.inr (.inl ho))) hx) he length.count
    · obtain ⟨ss, hss, rfl⟩ := hshape.of_struct ho
      refine Shape.componentsOfAll_le fun e he => ?_
      obtain ⟨x, hx, he⟩ := (mem_of_mapM hss).mp he
      exact ih x (mem_parts_of_struct ho hx) he

section

variable {e : Shape} {count location : Nat} {p : Placement}

theorem placeElements_fills {place : Nat → Checked Placement} (he : b.shape x = .ok e)
    (hc : e.components false ≤ 4 * e.locations false)
    (hplace : ∀ l q, l + e.locations false ≤ locationLimit → place l = .ok q →
      q.Fills l (e.locations false) (e.components false))
    (hl : location + cappedMul count (e.locations false) ≤ locationLimit)
    (h : b.placeElements place x count location = .ok p) :
    p.Fills location (cappedMul count (e.locations false))
      (cappedMul count (e.components false)) := by
  obtain ⟨_, he', h⟩ := ok_of_bind h
  cases he.symm.trans he'
  dsimp only at h
  split at h
  case isTrue hzero =>
    obtain rfl := Except.ok.inj h
    obtain hnone : e.components false = 0 := by omega
    rw [hzero, hnone]
    exact (Placement.Fills.empty location).of_eq rfl rfl
  case isFalse hpos =>
    obtain ⟨parts, hparts, h⟩ := ok_of_bind h
    obtain rfl := Except.ok.inj h
    generalize e.locations false = size at *
    generalize e.components false = n at *
    -- Below the limit no product is capped and no element is left out.
    have hsize : cappedMul count size = count * size :=
      capped_of_capped_le (Nat.le_of_add_left_le hl) (by decide)
    have hcount : cappedMul count n = count * n := by
      refine capped_of_le ?_
      have hle : count * n ≤ 4 * (count * size) := by
        rw [Nat.mul_left_comm]
        exact Nat.mul_le_mul_left count hc
      unfold locationLimit at hl
      unfold Word.greatest
      omega
    have hall : elementsBelowLimit count size location = count := by
      refine Nat.min_eq_left ((Nat.le_div_iff_mul_le (Nat.pos_of_ne_zero hpos)).mpr ?_)
      omega
    rw [hall] at hparts ⊢
    have hfor := forall₂_of_mapM hparts
    have hlength : parts.length = count := by rw [← hfor.length_eq, length_range]
    rw [hsize, hcount, ← hlength]
    refine (Placement.Fills.flatMap fun k q hq => ?_).of_eq ?_ rfl
    · obtain ⟨hk, rfl⟩ := List.getElem?_eq_some_iff.mp hq
      have hq := hfor.get (i := k) (by rw [length_range]; omega) hk
      refine hplace _ _ ?_ (by simpa using hq)
      have : (k + 1) * size ≤ count * size := Nat.mul_le_mul_right size (by omega)
      rw [Nat.add_one_mul] at this
      omega
    · rw [hlength]
      exact hsize

theorem foldlM_place_fills {place : Id → Nat → Checked Placement} {members : List Id}
    {ss : List Shape} {q : Placement} {a m : Nat}
    (hplace : Forall₂ (fun x s => ∀ l r, l + s.locations false ≤ locationLimit → place x l = .ok r →
      r.Fills l (s.locations false) (s.components false)) members ss)
    (hc : ∀ s ∈ ss, s.components false ≤ 4 * s.locations false) (hq : q.Fills location a m)
    (hl : location + a + Shape.locationsOfAll ss ≤ locationLimit)

    (h : members.foldlM (fun p x => return p.append (← place x (cappedAdd location p.locations))) q
      = .ok p) :
    p.Fills location (a + Shape.locationsOfAll ss) (m + Shape.componentsOfAll ss) := by
  induction hplace generalizing q a m
  case nil =>
    obtain rfl := Except.ok.inj h
    exact hq
  case cons x s members ss hs _ hi =>
    rw [forall_mem_cons] at hc
    have hrest := Shape.componentsOfAll_le hc.right
    rw [Shape.locationsOfAll] at hl ⊢
    rw [Shape.componentsOfAll]
    have hsize : cappedAdd (s.locations false) (Shape.locationsOfAll ss)
        = s.locations false + Shape.locationsOfAll ss :=
      capped_of_capped_le (Nat.le_of_add_left_le hl) (by decide)
    rw [hsize] at hl ⊢
    have hlimit : locationLimit * 4 < Word.greatest := by decide
    have hcount : cappedAdd (s.components false) (Shape.componentsOfAll ss)
        = s.components false + Shape.componentsOfAll ss :=
      capped_of_le (by omega)
    rw [foldlM_cons] at h
    obtain ⟨r, hr, h⟩ := ok_of_bind h
    obtain ⟨placed, hplaced, hr⟩ := ok_of_bind hr
    obtain rfl := Except.ok.inj hr
    rw [hq.locations, cappedAdd, capped_of_le (by omega)] at hplaced
    have hnext := hq.append (hs _ _ (by omega) hplaced) (by omega)
    rw [hcount, ← Nat.add_assoc, ← Nat.add_assoc]
    exact hi hc.right hnext (by omega) h

end

section

variable {location : Nat} {p : Placement} (hd : b.definition? id = some i)
  (hroom : location < locationLimit) (hp : b.placeTo (depth + 1) id location 0 = .ok p)

include hd hroom hp

theorem fills_of_isScalar (hi : i.IsScalar) (hs : b.shapeTo (k + 1) id = .ok s) :
    p.Fills location (s.locations false) (s.components false) := by
  obtain ⟨w, hw, hle⟩ := widthOf?_of_isScalar hd hi
  obtain ⟨hc, hone⟩ := components_of_isScalar hd hi hw hs
  rw [placeTo] at hp
  simp only [hd, if_neg (Nat.not_le_of_lt hroom)] at hp
  obtain ⟨slots, hslots, rfl⟩ : ∃ slots, b.scalarSlots id 1 location 0 = .ok slots
      ∧ p = { locations := 1, slots } := by
    obtain ho | ⟨ho | ho, _⟩ := hi
    all_goals
      simp only [ho] at hp
      obtain ⟨slots, hslots, hp⟩ := ok_of_bind hp
      exact ⟨slots, hslots, (Except.ok.inj hp).symm⟩
  have hfill := scalarSlots_fills hw (by decide) hle hroom hslots
  rw [hc, hone]
  rwa [vectorLocations_one hle, Nat.one_mul] at hfill

theorem fills_of_vector {w : Nat} {n : Word} {e : Shape} (ho : i.op? = some .typeVector)
    (hx : i.word? 2 = some x) (hn : i.word? 3 = some n) (hcount : 1 ≤ n.toNat ∧ n.toNat ≤ 4)
    (hw : b.widthOf? x = .ok (some w)) (hle : 1 ≤ w ∧ w ≤ 64)
    (hc : e.components false = perScalar w) (hs : b.shape id = .ok (.vector n.toNat (some w) e)) :
    p.Fills location (Shape.vectorLocations n.toNat (some w))
      (cappedMul n.toNat (e.components false)) := by
  rw [placeTo] at hp
  simp only [hd, if_neg (Nat.not_le_of_lt hroom), ho, Instruction.word, hx, hn] at hp
  obtain ⟨_, ⟨⟩, hp⟩ := ok_of_bind hp
  obtain ⟨_, ⟨⟩, hp⟩ := ok_of_bind hp
  obtain ⟨slots, hslots, hp⟩ := ok_of_bind hp
  obtain ⟨_, hs', hp⟩ := ok_of_bind hp
  cases hs.symm.trans hs'
  obtain rfl := Except.ok.inj hp
  have hexact : cappedMul n.toNat (perScalar w) = n.toNat * perScalar w := by
    refine capped_of_le (Nat.le_trans (Nat.mul_le_mul hcount.right (?_ : perScalar w ≤ 2))
      (by decide))
    unfold perScalar
    split <;> decide
  rw [hc, hexact]
  exact scalarSlots_fills hw hcount hle hroom hslots

end

theorem Built.fills {location : Nat} {p : Placement} (h : b.Built b.InInterface k id)
    (hk : k ≤ typeDepth) (hdepth : k ≤ depth) (hs : b.shapeTo k id = .ok s)
    (hl : location + s.locations false ≤ locationLimit)
    (hp : b.placeTo depth id location 0 = .ok p) :
    p.Fills location (s.locations false) (s.components false) := by
  have hle := h.components_le hs
  induction h generalizing s depth location p
  case mk k id i hd hi hparts ih =>
    obtain ⟨depth, rfl⟩ : ∃ d, depth = d + 1 := ⟨depth - 1, by omega⟩
    by_cases hroom : location < locationLimit
    -- Nothing is placed at the limit or past it, and there is no room for anything there.
    case neg =>
      rw [placeTo] at hp
      simp only [hd, if_pos (Nat.le_of_not_lt hroom)] at hp
      obtain rfl := Except.ok.inj hp
      obtain hzero : s.locations false = 0 := by omega
      obtain hnone : s.components false = 0 := by omega
      rw [hzero, hnone]
      exact .empty location
    case pos =>
      have hshape := shapes_of_shapeTo hd hs
      have hpart {x : Id} {e : Shape} (hx : x ∈ i.parts) (he : b.shapeTo k x = .ok e) (l : Nat)
          (q : Placement) (hl : l + e.locations false ≤ locationLimit)
          (hq : b.placeTo depth x l 0 = .ok q) :
          q.Fills l (e.locations false) (e.components false) :=
        ih x hx (by omega) (by omega) he hl hq ((hparts x hx).components_le he)
      have helements {x : Id} {e : Shape} {n : Nat} {q : Placement} (hx : x ∈ i.parts)
          (he : b.shapeTo k x = .ok e)
          (hl : location + cappedMul n (e.locations false) ≤ locationLimit)
          (hq : b.placeElements (b.placeTo depth x · 0) x n location = .ok q) :
          q.Fills location (cappedMul n (e.locations false)) (cappedMul n (e.components false)) :=
        placeElements_fills (((hparts x hx).shape_eq (by omega)).trans he)
          ((hparts x hx).components_le he) (hpart hx he) hl hq
      have hself : b.shape id = .ok s := ((Built.mk hd hi hparts).shape_eq hk).trans hs
      obtain hi | ⟨ho, ⟨j, hj, hscalar⟩, n, hn, hcount⟩ | ⟨ho, _⟩ | ho | ho := hi
      · exact fills_of_isScalar hd hroom hp hi hs
      · obtain ⟨x, w, e, hx, hw, hwle, hc, rfl⟩ := hshape.of_vector_isScalar ho hn hj hscalar hparts
        exact fills_of_vector hd hroom hp ho hx hn hcount hw hwle hc hself
      -- The types that are placed part by part.
      all_goals
        rw [placeTo] at hp
        simp only [hd, if_neg (Nat.not_le_of_lt hroom), ho] at hp
      · obtain ⟨x, n, e, hx, hn, he, rfl⟩ := hshape.of_matrix ho
        simp only [Instruction.word, hx, hn] at hp
        exact helements (mem_parts_of_word (.inr (.inl ho)) hx) he hl hp
      · obtain ⟨x, length, e, hx, hlength, he, rfl⟩ := hshape.of_array ho
        simp only [Instruction.word, hx, hlength] at hp
        obtain ⟨_, ⟨⟩, hp⟩ := ok_of_bind hp
        obtain ⟨_, ⟨⟩, hp⟩ := ok_of_bind hp
        obtain ⟨q, hq, hp⟩ := ok_of_bind hp
        obtain rfl := Except.ok.inj hp
        exact (helements (mem_parts_of_word (.inr (.inr (.inl ho))) hx) he hl hq).of_eq rfl rfl
      · obtain ⟨ss, hss, rfl⟩ := hshape.of_struct ho
        have hmembers : Forall₂ (fun x e => ∀ l q, l + e.locations false ≤ locationLimit →
            b.placeTo depth x l 0 = .ok q → q.Fills l (e.locations false) (e.components false))
              i.operands ss :=
          ((forall₂_and_left _ _).mpr ⟨fun x hx => hx, forall₂_of_mapM hss⟩).imp fun x e h =>
            hpart (mem_parts_of_struct ho h.left) h.right
        have hc : ∀ e ∈ ss, e.components false ≤ 4 * e.locations false := fun e he => by
          obtain ⟨x, hx, he⟩ := (mem_of_mapM hss).mp he
          exact (hparts x (mem_parts_of_struct ho hx)).components_le he
        have hfill := foldlM_place_fills hmembers hc (.empty location) (by rwa [Nat.add_zero]) hp
        rwa [Nat.zero_add, Nat.zero_add] at hfill

end Binary

theorem place_fills {words : List Word} {b : Binary} {type : Id} (hb : Binary.ofWords words = .ok b)
    (ht : b.Built b.InInterface Binary.typeDepth type) :
    ∃ shape, b.shape type = .ok shape
      ∧ ∀ location, location + shape.locations false ≤ Binary.locationLimit →
      ∃ p, b.place type location 0 = .ok p
        ∧ p.Fills location (shape.locations false) (shape.components false) := by
  have hf := (Binary.read_valid hb).framed
  obtain ⟨shape, hs⟩ := Binary.shape_succeeds hf type
  refine ⟨shape, hs, fun location hl => ?_⟩
  obtain ⟨p, hp⟩ := Binary.place_succeeds hf type location 0
  exact ⟨p, hp, ht.fills (Nat.le_refl _) (Nat.le_refl _) hs hl hp⟩

namespace Slot

-- A struct 11 of a vector of three doubles, two matrices, an empty struct, and a boolean.
def varied : List Word :=
  [119734787, 66816, 0, 12, 0, 196630, 1, 64, 262167, 2, 1, 3, 196630, 3, 32, 262167, 4, 3, 3,
    262168, 5, 4, 2, 262165, 6, 32, 0, 262187, 6, 7, 2, 262172, 8, 5, 7, 131102, 9, 131092, 10,
    393246, 11, 2, 8, 9, 10]

theorem place_fills_varied :
    ∃ b p, Binary.ofWords varied = .ok b ∧ b.Built b.InInterface Binary.typeDepth 11
      ∧ b.place 11 4089 0 = .ok p ∧ p.Fills 4089 7 19 := by
  obtain ⟨b, hb, ht, hs⟩ : ∃ b, Binary.ofWords varied = .ok b
      ∧ b.Built b.InInterface Binary.typeDepth 11
      ∧ (b.shape 11).map (fun s => (s.locations false, s.components false)) = .ok (7, 19) :=
    exists_ok_of_decide (by decide +kernel)
  obtain ⟨shape, hshape, hplace⟩ := place_fills hb ht
  rw [hshape] at hs
  obtain ⟨hl, hc⟩ := Prod.mk.inj (Except.ok.inj hs)
  rw [hl, hc] at hplace
  obtain ⟨p, hp, hfills⟩ := hplace 4089 (by decide)
  exact ⟨b, p, hb, ht, hp, hfills⟩

end Slot
end Shader
