import Shader.Proofs.Type.Size

namespace Shader

open List

theorem forall₂_of_filterMapM {α β : Type} {f : α → Checked (Option β)} {l : List α} {r : List β}
    (hf : ∀ a ∈ l, ∀ b, f a = .ok b → b.isSome) (h : l.filterMapM f = .ok r) :
    Forall₂ (fun a b => f a = .ok (some b)) l r := by
  induction l generalizing r
  case nil =>
    cases h
    exact .nil
  case cons a l hi =>
    rw [forall_mem_cons] at hf
    rw [filterMapM_cons] at h
    obtain ⟨b, hb, h⟩ := ok_of_bind h
    cases b
    case none => cases hf.left none hb
    case some b =>
      obtain ⟨bs, hbs, h⟩ := ok_of_bind h
      cases h
      exact .cons hb (hi hf.right hbs)

namespace Shape

def isArray : Shape → Bool
  | .array _ _ | .runtimeArray _ => true
  | _ => false

mutual

def laidBits : Shape → Nat
  | .struct members => laidBitsOfAll members
  | .array length element => length.count * element.structBits?.getD element.exactBits
  | s => s.exactBits

def structBits? : Shape → Option Nat
  | .struct members => some (laidBitsOfAll members)
  | .array _ element | .runtimeArray element => element.structBits?
  | _ => none

def laidBitsOfAll : List Shape → Nat
  | [] => 0
  | s :: rest => s.laidBits + laidBitsOfAll rest

end

mutual

-- No array of arrays has structs below.
def GridFree : Shape → Prop
  | .struct members => GridFreeOfAll members
  | .array _ element => element.GridFree ∧ (element.isArray → element.structBits? = none)
  | _ => True

def GridFreeOfAll : List Shape → Prop
  | [] => True
  | s :: rest => s.GridFree ∧ GridFreeOfAll rest

end

mutual

theorem laidBits_eq : (s : Shape) → s.GridFree → s.laidBits = s.exactBits
  | .struct members, h => laidBitsOfAll_eq members h
  | .array length element, h => by
    have hi := laidBits_eq element h.left
    rw [laidBits, exactBits]
    congr 1
    cases element
    case array | runtimeArray => rw [h.right rfl, Option.getD_none]
    case struct => exact hi
    all_goals rfl
  | .absent, _ | .scalar _, _ | .bool, _ | .vector _ _ _, _ | .matrix _ _, _ | .runtimeArray _,
      _ | .address, _
  | .pointer _, _ | .other, _ => rfl

theorem laidBitsOfAll_eq :
    (ss : List Shape) → GridFreeOfAll ss → laidBitsOfAll ss = exactBitsOfAll ss
  | [], _ => rfl
  | s :: rest, h => by rw [laidBitsOfAll, exactBitsOfAll, laidBits_eq s h.left,
      laidBitsOfAll_eq rest h.right]

end

end Shape

-- A type declared in whole bytes, without offsets and without a stride, after the types it is built
-- from.
structure Outline.Packed (o : Outline) (i : Instruction) : Prop where
  whole   : i.IsWhole
  stride  : i.op? = some .typeArray →
    ∀ id ∈ i.resultId?, (o.decorationsOf id).base.arrayStride = none
  offsets : i.op? = some .typeStruct → ∀ id ∈ i.resultId?, ∀ d ∈ (o.decorationsOf id).memberList,
    d.offset = none
  earlier : ∀ x ∈ i.parts, ∀ j ∈ o.definition? x, j.index < i.index

instance (o : Outline) : DecidablePred o.Packed := fun i =>
  -- As for ids, words are not to be tried one by one.
  have : Decidable i.IsWhole :=
    have : Decidable (∀ w ∈ i.word? 2, 8 ∣ w.toNat) := Option.decidableForallMem _
    inferInstanceAs (Decidable (_ → _))
  have : Decidable (∀ id ∈ i.resultId?, (o.decorationsOf id).base.arrayStride = none) :=
    Option.decidableForallMem _
  have (id : Id) : Decidable (∀ d ∈ (o.decorationsOf id).memberList, d.offset = none) :=
    List.decidableBAll _ _
  have : Decidable (∀ id ∈ i.resultId?, ∀ d ∈ (o.decorationsOf id).memberList, d.offset = none) :=
    Option.decidableForallMem _
  have : Decidable (∀ x ∈ i.parts, ∀ j ∈ o.definition? x, j.index < i.index) :=
    List.decidableBAll _ _
  decidable_of_iff (i.IsWhole ∧ _ ∧ _ ∧ _) ⟨fun ⟨h₁, h₂, h₃, h₄⟩ => ⟨h₁, h₂, h₃, h₄⟩,
    fun ⟨h₁, h₂, h₃, h₄⟩ => ⟨h₁, h₂, h₃, h₄⟩⟩

theorem Outline.IsRead.mem_structInstructions {o : Outline} (h : o.IsRead) {i : Instruction} :
    i ∈ o.structInstructions ↔ i ∈ o.instructions.toList ∧ i.op? = some .typeStruct := by
  obtain ⟨_, hc⟩ := Outline.of_ofBinary h.outline
  rw [hc.structs, mem_filter]
  simp [Option.any_eq_true]

theorem Outline.IsRead.pairwise_structInstructions {o : Outline} (h : o.IsRead) :
    o.structInstructions.Pairwise (·.index < ·.index) := by
  obtain ⟨_, hc⟩ := Outline.of_ofBinary h.outline
  rw [hc.structs]
  refine Pairwise.filter _ (pairwise_iff_getElem.mpr fun a b ha hb hlt => ?_)
  rw [h.indexed.place a _ (by simp_all), h.indexed.place b _ (by simp_all)]
  exact hlt

theorem Outline.IsRead.mem_past_iff {o : Outline} (h : o.IsRead) {past rest : List Instruction}
    {c : Instruction} (hall : o.structInstructions = past ++ c :: rest) (j : Instruction) :
    j ∈ past ↔ j ∈ o.structInstructions ∧ j.index < c.index := by
  have hsorted := h.pairwise_structInstructions
  rw [hall, pairwise_append, pairwise_cons] at hsorted
  obtain ⟨_, ⟨hafter, _⟩, hbefore⟩ := hsorted
  rw [hall]
  constructor
  case mp => exact fun hj => ⟨mem_append_left _ hj, hbefore j hj c mem_cons_self⟩
  case mpr =>
    rintro ⟨hj, hlt⟩
    obtain hj | rfl | hj : j ∈ past ∨ j = c ∨ j ∈ rest := by simpa using hj
    · exact hj
    · exact absurd hlt (Nat.lt_irrefl _)
    · exact absurd hlt (Nat.lt_asymm (hafter j hj))

namespace Binary

variable {o : Outline} {depth k : Nat} {id : Id} {i : Instruction} {s : Shape}

theorem Built.stripArraysTo (h : o.Built o.Packed k id) (hk : k ≤ depth)
    (hd : o.definition? id = some i) (hs : o.shapeTo k id = .ok s) :
    ∃ base, o.stripArraysTo depth i = .ok (some base)
      ∧ (base.op? ≠ some .typeStruct ∧ s.structBits? = none
        ∨ ∃ n y ss, n ≤ k ∧ o.Built o.Packed n y ∧ o.definition? y = some base
          ∧ base.op? = some .typeStruct
          ∧ base.index ≤ i.index ∧ o.shapeTo n y = .ok (.struct ss)
          ∧ s.structBits? = some (Shape.laidBitsOfAll ss)) := by
  induction h generalizing depth i s
  case mk k id j hd' hp hparts ih =>
    obtain rfl : i = j := Option.some.inj (hd.symm.trans hd')
    obtain ⟨depth, rfl⟩ : ∃ d, depth = d + 1 := ⟨depth - 1, by omega⟩
    have hshape := shapes_of_shapeTo hd hs
    rw [Binary.stripArraysTo]
    by_cases ha : i.isArray
    case pos =>
      -- Sized or not, the array has its element in the same place.
      obtain ⟨x, e, hx, hmem, he, hbits⟩ : ∃ x e, i.word? 2 = some x ∧ x ∈ i.parts
          ∧ o.shapeTo k x = .ok e ∧ s.structBits? = e.structBits? := by
        obtain ho | ho := isArray_iff.mp ha
        · obtain ⟨x, _, e, hx, _, he, rfl⟩ := hshape.of_array ho
          exact ⟨x, e, hx, mem_parts_of_word (.inr (.inr (.inl ho))) hx, he, rfl⟩
        · obtain ⟨x, e, hx, he, rfl⟩ := hshape.of_runtimeArray ho
          exact ⟨x, e, hx, mem_parts_of_word (.inr (.inr (.inr ho))) hx, he, rfl⟩
      obtain ⟨j, hj⟩ := (hparts x hmem).exists_definition?
      obtain ⟨base, hbase, hcases⟩ := ih x hmem (Nat.le_of_succ_le_succ hk) hj he
      refine ⟨base, ?_, ?_⟩
      · simp only [ha, if_true, Instruction.word, hx, bind, Except.bind, hj, hbase]
      · rw [hbits]
        obtain hnone | ⟨n, y, ss, hn, hb, hy, ho, hle, hss, hbits⟩ := hcases
        · exact .inl hnone
        · have := hp.earlier x hmem j hj
          exact .inr ⟨n, y, ss, by omega, hb, hy, ho, by omega, hss, hbits⟩
    case neg =>
      refine ⟨i, if_neg ha, ?_⟩
      by_cases ho : i.op? = some .typeStruct
      case pos =>
        obtain ⟨ss, _, rfl⟩ := hshape.of_struct ho
        exact .inr ⟨k + 1, id, ss, Nat.le_refl _, .mk hd hp hparts, hd, ho, Nat.le_refl _, hs, rfl⟩
      case neg =>
        refine .inl ⟨ho, ?_⟩
        rw [isArray_iff] at ha
        cases hshape
        case array ho' _ _ _ => exact absurd (.inl ho') ha
        case runtimeArray ho' _ _ => exact absurd (.inr ho') ha
        case struct ho' _ => exact absurd ho' ho
        all_goals rfl

end Binary

namespace StructTable

variable {o : Outline} {t : StructTable} {past : List Instruction} {k : Nat} {c i : Instruction}
  {id x : Id} {s : Shape} {m : StructMember}

structure Knows (t : StructTable) (o : Outline) (past : List Instruction) : Prop where
  keys   : ∀ id, id ∈ t ↔ ∃ i ∈ past, i.resultId? = some id
  ranges : ∀ i ∈ past, ∀ k id ss, i.resultId? = some id → k ≤ Binary.typeDepth →
    o.Built o.Packed k id →
    o.shapeTo k id = .ok (.struct ss) →
      ∃ info, t[id]? = some info ∧ info.range.offset = 0
      ∧ Measures info.range.limit (Shape.laidBitsOfAll ss)

structure IsMember (t : StructTable) (o : Outline) (x : Id) (m : StructMember) : Prop where
  type   : m.type = x
  offset : m.offset? = none
  struct : ∃ i base, o.definition? x = some i ∧ o.stripArrays? i = .ok base
    ∧ m.struct = (base.bind (·.resultId?)).filter (t.contains ·)

theorem of_member? {d : DecorationSet} {index : Nat} (h : t.member? o d index x = .ok (some m)) :
    ∃ i base, o.definition? x = some i ∧ o.stripArrays? i = .ok base
      ∧ m = ⟨x, i.index, (base.bind (·.resultId?)).filter (t.contains ·),
        d.member? (.ofNat index)⟩ := by
  unfold member? at h
  cases hi : o.definition? x <;> simp only [hi] at h
  case none => cases h
  case some i =>
    obtain ⟨base, hbase, h⟩ := ok_of_bind h
    exact ⟨i, base, rfl, hbase, (Option.some.inj (Except.ok.inj h)).symm⟩

theorem isMember_of_member? {d : DecorationSet} {index : Nat}
    (hd : ∀ e ∈ d.memberList, e.offset = none) (h : t.member? o d index x = .ok (some m)) :
    t.IsMember o x m := by
  obtain ⟨i, base, hi, hbase, rfl⟩ := of_member? h
  refine ⟨rfl, ?_, i, base, hi, hbase, rfl⟩
  rw [StructMember.offset?, Option.bind_eq_none_iff]
  intro e he
  have hmem : e ∈ d.memberList :=
    mem_map.mpr ⟨(.ofNat index, e), Std.ExtTreeMap.mem_toList_iff_getElem?_eq_some.mpr he, rfl⟩
  rw [hd e hmem, Option.map_none]

theorem isSome_of_member? {d : DecorationSet} {index : Nat} {r : Option StructMember}
    (hx : o.definition? x = some i) (h : t.member? o d index x = .ok r) : r.isSome := by
  unfold member? at h
  simp only [hx] at h
  obtain ⟨_, _, h⟩ := ok_of_bind h
  obtain rfl := Except.ok.inj h
  rfl

theorem of_addStruct {t' : StructTable} (h : t.addStruct o c = .ok t') : c.resultId? = none ∧ t' = t
    ∨ ∃ (cid : Id) (info : StructInfo) (lengths : List ArrayLength), c.resultId? = some cid
      ∧ t' = t.insert cid info
      ∧ c.operands.zipIdx.filterMapM (fun p => t.member? o (o.decorationsOf cid) p.2 p.1)
        = .ok info.members
      ∧ t.rangeOf o info.members = .ok (info.range, lengths) := by
  unfold addStruct at h
  cases hid : c.resultId? <;> simp only [hid] at h
  case none => exact .inl ⟨rfl, (Except.ok.inj h).symm⟩
  case some cid =>
    obtain ⟨members, hmembers, h⟩ := ok_of_bind h
    obtain ⟨⟨range, lengths⟩, hrange, h⟩ := ok_of_bind h
    exact .inr ⟨cid, _, lengths, rfl, (Except.ok.inj h).symm, hmembers, hrange⟩

theorem highest?_eq_none_iff {members : List StructMember} :
    highest? members = none ↔ ∀ x ∈ members, x.offset? = none := by
  induction members
  case nil => simp [highest?]
  case cons y members hi =>
    rw [forall_mem_cons, ← hi, highest?]
    cases y.offset? <;> cases highest? members <;> simp
    split <;> simp

section

variable (hr : o.IsRead) (ht : t.Knows o past) (hpast : ∀ j ∈ past, j ∈ o.structInstructions)
  (hbefore : ∀ j ∈ o.structInstructions, j.index < c.index → j ∈ past)

include hr ht hpast hbefore

section

variable (hx : o.Built o.Packed k x) (hk : k ≤ Binary.typeDepth) (hs : o.shapeTo k x = .ok s)
  (hd : o.definition? x = some i) (hi : i.index < c.index) (hm : t.IsMember o x m)

include hx hk hs hd hi hm

theorem IsMember.struct_eq : (s.structBits? = none → m.struct = none)
    ∧ ∀ bits, s.structBits? = some bits → ∃ y, m.struct = some y
    ∧ Measures (t.limitOf (some y)).1 bits := by
  obtain ⟨_, _, hd', hbase, hstruct⟩ := hm.struct
  cases hd'.symm.trans hd
  obtain ⟨base, hbase', hcases⟩ := hx.stripArraysTo hk hd hs
  cases hbase.symm.trans hbase'
  rw [Option.bind_some] at hstruct
  obtain ⟨ho, hbits⟩ | ⟨n, y, ss, hn, hy, hdy, ho, hle, hss, hbits⟩ := hcases
  · refine ⟨fun _ => ?_, fun bits h => absurd (hbits.symm.trans h) (by simp)⟩
    rw [hstruct, Option.filter_eq_none_iff]
    intro y hy hcontains
    -- A struct that the table knows is not `base`.
    obtain ⟨j, hj, hid⟩ := (ht.keys y).mp (Std.TreeMap.contains_iff_mem.mp hcontains)
    obtain ⟨hj, hoj⟩ := hr.mem_structInstructions.mp (hpast j hj)
    have hmem := Binary.mem_of_stripArraysTo (Binary.mem_of_definition? hd) hbase
    have hdj := hr.indexed.definition?_eq_some_iff.mpr ⟨hj, hid⟩
    cases hdj.symm.trans (hr.indexed.definition?_eq_some_iff.mpr ⟨hmem, hy⟩)
    exact ho hoj
  · refine ⟨fun h => absurd (hbits.symm.trans h) (by simp), fun bits h => ?_⟩
    cases hbits.symm.trans h
    obtain ⟨hmem, hid⟩ := hr.indexed.definition?_eq_some_iff.mp hdy
    have hbase : base ∈ past :=
      hbefore base (hr.mem_structInstructions.mpr ⟨hmem, ho⟩) (Nat.lt_of_le_of_lt hle hi)
    have hcontains : t.contains y :=
      Std.TreeMap.contains_iff_mem.mpr ((ht.keys y).mpr ⟨base, hbase, hid⟩)
    obtain ⟨info, hinfo, _, hlimit⟩ := ht.ranges base hbase n y ss hid (by omega) hy hss
    refine ⟨y, by rw [hstruct, hid, Option.filter_some, if_pos hcontains], ?_⟩
    simpa only [limitOf, Option.bind_some, hinfo] using hlimit

theorem IsMember.memberSize_measures {size : Nat × List ArrayLength}
    (h : t.memberSize o m = .ok size) :
    Measures size.1 s.laidBits := by
  obtain ⟨hnone, hsome⟩ := hm.struct_eq hr ht hpast hbefore hx hk hs hd hi
  obtain ⟨k, rfl, hp, hparts⟩ := hx.of_definition? hd
  have hshape := Binary.shapes_of_shapeTo hd hs
  simp only [memberSize, hm.type, hd] at h
  split at h
  case h_1 ho =>
    obtain ⟨ss, _, rfl⟩ := hshape.of_struct ho
    obtain ⟨y, hy, hlimit⟩ := hsome _ rfl
    obtain rfl := Except.ok.inj h
    rwa [hy]
  case h_2 ho =>
    obtain ⟨y, length, e, hy, hlength, he, rfl⟩ := hshape.of_array ho
    obtain ⟨_, hid⟩ := hr.indexed.definition?_eq_some_iff.mp hd
    obtain ⟨_, hlength', h⟩ := ok_of_bind h
    cases hlength.symm.trans hlength'
    rw [hp.stride ho x hid] at h
    rw [Shape.laidBits]
    cases hb : e.structBits?
    case none =>
      simp only [hnone hb, Instruction.word, hy] at h
      obtain ⟨_, ⟨⟩, h⟩ := ok_of_bind h
      obtain ⟨_, he', h⟩ := ok_of_bind h
      have hpart := hparts y (Binary.mem_parts_of_word (.inr (.inr (.inl ho))) hy)
      cases he'.symm.trans ((hpart.shape_eq (by omega)).trans he)
      obtain rfl := Except.ok.inj h
      exact (hpart.measures_bytes (fun _ h => h.whole) he).mul length.count
    case some bits =>
      obtain ⟨z, hz, hlimit⟩ := hsome bits hb
      simp only [hz] at h
      obtain rfl := Except.ok.inj h
      exact hlimit.mul length.count
  case h_3 ho =>
    obtain ⟨y, e, _, _, rfl⟩ := hshape.of_runtimeArray ho
    obtain rfl := Except.ok.inj h
    exact .zero
  -- Any other type has the size of its shape.
  case h_4 hstruct harray _ =>
    obtain ⟨shape, hs', h⟩ := ok_of_bind h
    cases hs'.symm.trans ((hx.shape_eq hk).trans hs)
    obtain rfl := Except.ok.inj h
    have hbytes := hx.measures_bytes (fun _ h => h.whole) hs
    cases hshape
    case struct => exact absurd ‹_› hstruct
    case array => exact absurd ‹_› harray
    all_goals exact hbytes

end

section

variable {xs : List Id} {members : List StructMember} {ss : List Shape} (hk : k ≤ Binary.typeDepth)
  (hxs : ∀ x ∈ xs, o.Built o.Packed k x) (hi : ∀ x ∈ xs, ∀ i ∈ o.definition? x, i.index < c.index)
  (hm : Forall₂ (t.IsMember o) xs members)

include hk hxs hi hm

-- What comes before these members takes `sum` bytes.
theorem foldl_sizes_measures {sizes : List (Nat × List ArrayLength)} {sum bits : Nat}
    (hs : Forall₂ (fun x s => o.shapeTo k x = .ok s) xs ss)
    (hsizes : Forall₂ (fun m size => t.memberSize o m = .ok size) members sizes)
    (hsum : Measures sum bits) :
    Measures (sizes.foldl (fun sum size => cappedAdd sum size.1) sum)
      (bits + Shape.laidBitsOfAll ss) := by
  induction hm generalizing sizes ss sum bits
  case nil =>
    cases hs
    cases hsizes
    exact hsum
  case cons x m xs members hmember _ ih =>
    cases hs
    case cons s ss hs hss =>
      cases hsizes
      case cons size sizes hsize hsizes =>
        rw [forall_mem_cons] at hxs hi
        obtain ⟨i, hd⟩ := hxs.left.exists_definition?
        have hmeasure := hmember.memberSize_measures hr ht hpast hbefore hxs.left hk hs hd
          (hi.left i hd) hsize
        rw [Shape.laidBitsOfAll, ← Nat.add_assoc, foldl_cons]
        exact ih hxs.right hi.right hss hsizes (hsum.add hmeasure)

theorem rangeOf_measures {r : StructRange × List ArrayLength} (hs : xs.mapM (o.shapeTo k) = .ok ss)
    (h : t.rangeOf o members = .ok r) :
    r.1.offset = 0 ∧ Measures r.1.limit (Shape.laidBitsOfAll ss) := by
  have hnone : highest? members = none := by
    refine highest?_eq_none_iff.mpr fun m hmem => ?_
    obtain ⟨_, _, hm⟩ := exists_of_mem_forall₂ hm hmem
    exact hm.offset
  rw [rangeOf, hnone] at h
  obtain ⟨sizes, hsizes, h⟩ := ok_of_bind h
  obtain rfl := Except.ok.inj h
  have hsum := foldl_sizes_measures hr ht hpast hbefore hk hxs hi hm (forall₂_of_mapM hs)
    (forall₂_of_mapM hsizes) .zero
  rw [Nat.zero_add] at hsum
  exact ⟨rfl, hsum⟩

end

theorem knows_of_addStruct {t' : StructTable} (hc : c ∈ o.structInstructions)
    (h : t.addStruct o c = .ok t') :
    t'.Knows o (past ++ [c]) := by
  obtain ⟨hmem, ho⟩ := hr.mem_structInstructions.mp hc
  obtain ⟨hid, rfl⟩ | ⟨cid, info, lengths, hid, rfl, hmembers, hrange⟩ := of_addStruct h
  · refine ⟨fun id => by simp [ht.keys, hid], fun i hi k id ss hi' => ?_⟩
    obtain hi | rfl : i ∈ past ∨ i = c := by simpa using hi
    · exact ht.ranges i hi k id ss hi'
    · cases hid.symm.trans hi'
  · refine ⟨fun id => by simp [ht.keys, hid, or_comm], fun i hi k id ss hi' hk hb hs => ?_⟩
    by_cases heq : cid = id
    case neg =>
      obtain hi | rfl : i ∈ past ∨ i = c := by simpa using hi
      · obtain ⟨info, hinfo, hrange⟩ := ht.ranges i hi k id ss hi' hk hb hs
        exact ⟨info, by simp [Std.TreeMap.getElem?_insert, heq, hinfo], hrange⟩
      · cases hid.symm.trans hi'
        exact absurd rfl heq
    -- The struct that was just added, measured from its members.
    case pos =>
      subst heq
      refine ⟨_, Std.TreeMap.getElem?_insert_self, ?_⟩
      have hd := hr.indexed.definition?_eq_some_iff.mpr ⟨hmem, hid⟩
      obtain ⟨n, rfl, hp, hparts⟩ := hb.of_definition? hd
      obtain ⟨ss', hss, hshape⟩ := (Binary.shapes_of_shapeTo hd hs).of_struct ho
      cases hshape
      have hbuilt (x : Id) (hx : x ∈ c.operands) : o.Built o.Packed n x :=
        hparts x (Binary.mem_parts_of_struct ho hx)
      have hall : Forall₂ (t.IsMember o) c.operands info.members := by
        have hfor := forall₂_of_filterMapM (fun a ha _ hr => ?_) hmembers
        · rw [← zipIdx_map_fst 0 c.operands, forall₂_map_left_iff]
          exact hfor.imp fun _ _ => isMember_of_member? (hp.offsets ho cid hid)
        · obtain ⟨i, hi⟩ := (hbuilt a.1 (fst_mem_of_mem_zipIdx ha)).exists_definition?
          exact isSome_of_member? hi hr
      exact rangeOf_measures hr ht hpast hbefore (by omega) hbuilt
        (fun x hx => hp.earlier x (Binary.mem_parts_of_struct ho hx)) hall hss hrange

end

theorem of_foldlM {P : StructTable → List Instruction → Prop} {rest : List Instruction}
    {t' : StructTable} (hr : o.IsRead) (hall : o.structInstructions = past ++ rest)
    (hstep : ∀ {t t' past c}, (∀ j, j ∈ past ↔ j ∈ o.structInstructions ∧ j.index < c.index) →
      c ∈ o.structInstructions → P t past → t.addStruct o c = .ok t' → P t' (past ++ [c]))
    (ht : P t past) (h : rest.foldlM (addStruct o) t = .ok t') : P t' o.structInstructions := by
  induction rest generalizing past t
  case nil =>
    obtain rfl := Except.ok.inj h
    rwa [hall, append_nil]
  case cons c rest hi =>
    rw [foldlM_cons] at h
    obtain ⟨next, hnext, h⟩ := ok_of_bind h
    have hc : c ∈ o.structInstructions := by
      rw [hall]
      exact mem_append_right _ mem_cons_self
    refine hi ?_ (hstep (hr.mem_past_iff hall) hc ht hnext) h
    rw [hall, append_assoc, singleton_append]

theorem knows_of_foldlM {rest : List Instruction} {t' : StructTable} (hr : o.IsRead)
    (hall : o.structInstructions = past ++ rest) (ht : t.Knows o past)
    (h : rest.foldlM (addStruct o) t = .ok t') :
    t'.Knows o o.structInstructions := by
  refine of_foldlM (P := fun t past => t.Knows o past) hr hall (fun hbefore hc ht hnext => ?_) ht h
  exact knows_of_addStruct hr ht (fun j hj => ((hbefore j).mp hj).left)
    (fun j hj hlt => (hbefore j).mpr ⟨hj, hlt⟩) hc
    hnext

end StructTable

theorem structs_range {words : List Word} {m : Module} {id : Id} {i : Instruction}
    (hm : Module.ofWords words = .ok m) (hd : m.definition? id = some i)
    (ho : i.op? = some .typeStruct) (hb : m.Built m.toOutline.Packed Binary.typeDepth id) :
    ∃ info s, m.structs[id]? = some info ∧ m.shape id = .ok s
      ∧ (s.laidBits < 2 ^ 32 → info.range = ⟨0, s.laidBits / 8⟩)
      ∧ (s.exactBits < 2 ^ 32 → (info.range = ⟨0, s.bytes⟩ ↔ s.laidBits = s.exactBits))
      ∧ (s.GridFree → s.laidBits = s.exactBits) := by
  have hr := (Module.isAnalysed_of_ofWords hm).toIsRead
  obtain ⟨s, hs⟩ := Binary.shape_succeeds hr.indexed.framed id
  obtain ⟨hmem, hid⟩ := hr.indexed.definition?_eq_some_iff.mp hd
  obtain ⟨ss, _, rfl⟩ := (Binary.shapes_of_shapeTo hd hs).of_struct ho
  have hknows := StructTable.knows_of_foldlM hr (nil_append _).symm ⟨by simp, by simp⟩
    (Module.structs_of_ofWords hm)
  obtain ⟨info, hinfo, hoffset, hlimit⟩ :=
    hknows.ranges i (hr.mem_structInstructions.mpr ⟨hmem, ho⟩) _ id ss hid
    (Nat.le_refl _) hb hs
  have hrange (n : Nat) : info.range = ⟨0, n⟩ ↔ info.range.limit = n := by
    rw [← hoffset]
    exact ⟨fun h => by rw [h], fun h => by rw [← h]⟩
  refine ⟨info, _, hinfo, hs, fun hlt => ?_, fun hlt => ?_, Shape.laidBits_eq _⟩
  · rw [hrange]
    rw [Shape.laidBits] at *
    unfold Measures at hlimit
    omega
  · rw [hrange]
    exact hlimit.eq_iff (hb.measures_bytes (fun _ h => h.whole) hs) hlt

namespace Layout

-- A struct 9 of a struct, three such structs, a pointer to one in physical storage, and a runtime
-- array of them.
def nested : List Word :=
  [119734787, 66816, 0, 10, 0, 262165, 1, 32, 0, 262187, 1, 2, 3, 196630, 3, 64, 262167, 4, 3, 3,
    262174, 5, 4, 1, 262172, 6, 5, 2, 196637, 7, 5, 262176, 8, 5349, 5, 393246, 9, 5, 6, 8, 7]

theorem structs_range_nested :
    ∃ m i info s, Module.ofWords nested = .ok m ∧ m.definition? 9 = some i
      ∧ i.op? = some .typeStruct ∧ m.Built m.toOutline.Packed Binary.typeDepth 9
      ∧ m.structs[(9 : Id)]? = some info ∧ m.shape 9 = .ok s ∧ s.exactBits = 960
      ∧ info.range = ⟨0, s.bytes⟩ := by
  obtain ⟨m, hm, hop, hb, hbits⟩ : ∃ m, Module.ofWords nested = .ok m
      ∧ (m.definition? 9).bind (·.op?) = some .typeStruct
      ∧ m.Built m.toOutline.Packed Binary.typeDepth 9
      ∧ (m.shape 9).map (fun s => (s.laidBits, s.exactBits)) = .ok (960, 960) :=
    exists_ok_of_decide (by decide +kernel)
  obtain ⟨i, hd, ho⟩ := Option.bind_eq_some_iff.mp hop
  obtain ⟨info, s, hinfo, hs, _, hrange, _⟩ := structs_range hm hd ho hb
  rw [hs] at hbits
  obtain ⟨hlaid, hexact⟩ := Prod.mk.inj (Except.ok.inj hbits)
  exact ⟨m, i, info, s, hm, hd, ho, hb, hinfo, hs, hexact,
    (hrange (by omega)).mpr (by rw [hlaid, hexact])⟩

-- A struct 7 of a grid of two by three structs.
def grid : List Word :=
  [119734787, 66816, 0, 8, 0, 262165, 1, 32, 0, 262187, 1, 2, 2, 262187, 1, 3, 3, 196638, 4, 1,
    262172, 5, 4, 3, 262172, 6, 5, 2, 196638, 7, 6]

theorem range_grid :
    ∃ m info s, Module.ofWords grid = .ok m ∧ m.Built m.toOutline.Packed Binary.typeDepth 7
      ∧ m.structs[(7 : Id)]? = some info ∧ m.shape 7 = .ok s ∧ s.exactBits < 2 ^ 32 ∧ s.bytes = 24
      ∧ info.range = ⟨0, 8⟩ := by
  obtain ⟨m, hm, hb, hrange, hbits⟩ : ∃ m, Module.ofWords grid = .ok m
      ∧ m.Built m.toOutline.Packed Binary.typeDepth 7
      ∧ m.structs[(7 : Id)]?.map (·.range) = some ⟨0, 8⟩
      ∧ (m.shape 7).map (fun s => (s.exactBits, s.bytes)) = .ok (192, 24) :=
    exists_ok_of_decide (by decide +kernel)
  obtain ⟨info, hinfo, hrange⟩ := Option.map_eq_some_iff.mp hrange
  obtain ⟨s, hs⟩ := Binary.shape_succeeds (Module.isAnalysed_of_ofWords hm).indexed.framed 7
  rw [hs] at hbits
  obtain ⟨hexact, hbytes⟩ := Prod.mk.inj (Except.ok.inj hbits)
  exact ⟨m, info, s, hm, hb, hinfo, hs, by omega, hbytes, hrange⟩

end Layout
end Shader
