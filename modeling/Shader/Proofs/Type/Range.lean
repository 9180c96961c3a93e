import Shader.Proofs.Type.Layout

namespace Shader

open List

theorem StructMember.offset?_le {m : StructMember} {offset : Nat} (h : m.offset? = some offset) :
    offset ≤ Word.greatest := by
  obtain ⟨d, _, h⟩ := Option.bind_eq_some_iff.mp h
  obtain ⟨w, _, rfl⟩ := Option.map_eq_some_iff.mp h
  exact Nat.le_of_lt_succ w.toNat_lt

namespace StructTable

variable {o : Outline} {t t' : StructTable} {members : List StructMember} {m : StructMember}
  {offset : Nat}

theorem highest?_eq_some (h : highest? members = some (offset, m)) :
    m ∈ members ∧ m.offset? = some offset
      ∧ ∀ x ∈ members, ∀ n, x.offset? = some n → n ≤ offset := by
  induction members generalizing offset m
  case nil => cases h
  case cons y members hi =>
    rw [highest?] at h
    split at h
    case h_1 first best last hy hbest =>
      obtain ⟨hmem, hlast, hle⟩ := hi hbest
      split at h
      case isTrue hlt =>
        cases h
        refine ⟨mem_cons_self, hy, forall_mem_cons.mpr ⟨fun n hn => ?_, fun x hx n hn => ?_⟩⟩
        · cases hy.symm.trans hn
          exact Nat.le_refl _
        · exact Nat.le_trans (hle x hx n hn) (Nat.le_of_lt hlt)
      case isFalse hge =>
        cases h
        refine ⟨mem_cons_of_mem _ hmem, hlast, forall_mem_cons.mpr ⟨fun n hn => ?_, hle⟩⟩
        cases hy.symm.trans hn
        exact Nat.not_lt.mp hge
    case h_2 first hy hnone =>
      cases h
      refine ⟨mem_cons_self, hy, forall_mem_cons.mpr ⟨fun n hn => ?_, fun x hx n hn => ?_⟩⟩
      · cases hy.symm.trans hn
        exact Nat.le_refl _
      · cases (highest?_eq_none_iff.mp hnone x hx).symm.trans hn
    case h_3 hy =>
      obtain ⟨hmem, hm, hle⟩ := hi h
      refine ⟨mem_cons_of_mem _ hmem, hm, forall_mem_cons.mpr ⟨fun n hn => ?_, hle⟩⟩
      cases hy.symm.trans hn

variable {r : StructRange} {lengths : List ArrayLength}

theorem of_rangeOf (hm : highest? members = some (offset, m))
    (h : t.rangeOf o members = .ok (r, lengths)) :
    (∃ size, t.memberSize o m = .ok (size, lengths) ∧ r.limit = cappedAdd offset size)
      ∧ (∃ x ∈ members, x.offset? = some r.offset) ∧ ∀ x ∈ members, ∀ n, x.offset? = some n →
        r.offset ≤ n := by
  obtain ⟨hmem, hoffset, _⟩ := highest?_eq_some hm
  rw [rangeOf, hm] at h
  obtain ⟨⟨size, _⟩, hsize, h⟩ := ok_of_bind h
  cases h
  -- The offsets that the lowest is taken of are those of the members.
  have hmin : (offset :: members.filterMap (·.offset?)).min? = some _ := min?_cons'
  obtain ⟨hlowest, hle⟩ := min?_eq_some_iff.mp hmin
  refine ⟨⟨size, hsize, rfl⟩, ?_, fun x hx n hn => ?_⟩
  · obtain heq | hx := mem_cons.mp hlowest
    · exact ⟨m, hmem, hoffset.trans (congrArg some heq.symm)⟩
    · exact mem_filterMap.mp hx
  · exact hle n (mem_cons_of_mem _ (mem_filterMap.mpr ⟨x, hx, hn⟩))

theorem offset_le_limit (h : t.rangeOf o members = .ok (r, lengths)) : r.offset ≤ r.limit := by
  cases hm : highest? members
  case none =>
    rw [rangeOf, hm] at h
    obtain ⟨_, _, h⟩ := ok_of_bind h
    cases h
    exact Nat.zero_le _
  case some best =>
    obtain ⟨hmem, hoffset, _⟩ := highest?_eq_some hm
    obtain ⟨⟨size, _, hlimit⟩, _, hle⟩ := of_rangeOf hm h
    have hlow := hle _ hmem _ hoffset
    have hword := StructMember.offset?_le hoffset
    rw [hlimit, cappedAdd, capped]
    omega

end StructTable

namespace StructRange

def Apart (r x : StructRange) : Prop :=
  ∀ byte, ¬((r.offset ≤ byte ∧ byte < r.limit) ∧ x.offset ≤ byte ∧ byte < x.limit)

theorem apart_iff {r x : StructRange} : r.Apart x ↔
    r.limit ≤ x.offset ∨ x.limit ≤ r.offset ∨ r.limit ≤ r.offset ∨ x.limit ≤ x.offset := by
  constructor
  case mp =>
    intro h
    have hr := h r.offset
    have hx := h x.offset
    omega
  case mpr =>
    intro h byte hb
    omega

instance : DecidableRel Apart := fun _ _ =>
  decidable_of_iff' _ apart_iff

theorem Apart.symm {r x : StructRange} (h : r.Apart x) : x.Apart r :=
  fun byte hb => h byte hb.symm

def Covers (r x : StructRange) : Prop :=
  r.offset ≤ x.offset ∧ x.limit ≤ r.limit

-- The start of `x` is after that of `r` and before its end.
def Interrupted (r x : StructRange) : Prop :=
  r.offset < x.offset ∧ x.offset < r.limit

structure Beside (places : List StructRange) : Prop where
  nonempty : places ≠ []
  distinct : (places.map (·.offset)).Nodup
  apart    : places.Pairwise Apart
  fits     : ∀ r ∈ places, r.limit ≤ 2 ^ 32 - 1

instance (places : List StructRange) : Decidable (Beside places) :=
  decidable_of_iff (_ ∧ _ ∧ _ ∧ _) ⟨fun h => ⟨h.1, h.2.1, h.2.2.1, h.2.2.2⟩,
    fun h => ⟨h.1, h.2, h.3, h.4⟩⟩

def IsTop (places : List StructRange) (top : StructRange) : Prop :=
  top ∈ places ∧ ∀ r ∈ places, r.offset ≤ top.offset

variable {places : List StructRange} {top top' range : StructRange}

theorem Beside.top_eq (h : Beside places) (ht : IsTop places top) (ht' : IsTop places top') :
    top = top' :=
  inj_on_of_nodup_map h.distinct ht.left ht'.left
    (Nat.le_antisymm (ht'.right _ ht.left) (ht.right _ ht'.left))

theorem Beside.covers_iff (h : Beside places) (hup : ∀ r ∈ places, r.offset ≤ r.limit)
    (hlow : ∀ r ∈ places, range.offset ≤ r.offset) (ht : IsTop places top)
    (hlimit : top.limit = range.limit) :
    (∀ r ∈ places, range.Covers r) ↔ ∀ top, IsTop places top →
      ∀ r ∈ places, ¬r.Interrupted top := by
  constructor
  case mp =>
    intro hcovers top' ht' r hr hi
    obtain rfl := h.top_eq ht ht'
    have hends := (hcovers r hr).right
    obtain ⟨hi, hi'⟩ := hi
    have hne : r ≠ top := fun heq => Nat.lt_irrefl _ (heq ▸ hi)
    -- The first byte of the one is also in the other.
    have : Std.Symm Apart := ⟨fun _ _ h => h.symm⟩
    exact h.apart.forall hr ht.left hne top.offset ⟨⟨Nat.le_of_lt hi, hi'⟩, Nat.le_refl _, by omega⟩
  case mpr =>
    intro hnot r hr
    refine ⟨hlow r hr, ?_⟩
    have hi := hnot top ht r hr
    have hle := ht.right r hr
    have htop := hup top ht.left
    by_cases heq : r.offset = top.offset
    case pos => rw [h.top_eq ⟨hr, heq ▸ ht.right⟩ ht, hlimit]
    case neg =>
      unfold Interrupted at hi
      omega

end StructRange

namespace StructTable

structure Occupies (t : StructTable) (o : Outline) (m : StructMember) (r : StructRange) : Prop where
  offset : m.offset? = some r.offset
  size   : ∃ size lengths, t.memberSize o m = .ok (size, lengths) ∧ r.limit = r.offset + size

variable {o : Outline} {t : StructTable} {members : List StructMember} {range : StructRange}
  {lengths : List ArrayLength} {places : List StructRange}

theorem occupies_iff {m : StructMember} {r : StructRange} : t.Occupies o m r ↔
    m.offset? = some r.offset ∧ (t.memberSize o m).map (r.offset + ·.1) = .ok r.limit := by
  constructor
  case mp =>
    intro h
    obtain ⟨size, lengths, hsize, hlimit⟩ := h.size
    exact ⟨h.offset, by rw [hsize, hlimit, Except.map]⟩
  case mpr =>
    rintro ⟨hoffset, h⟩
    cases hsize : t.memberSize o m <;> rw [hsize] at h
    case error => cases h
    case ok size => exact ⟨hoffset, size.1, size.2, hsize, (Except.ok.inj h).symm⟩

instance {m : StructMember} {r : StructRange} : Decidable (t.Occupies o m r) :=
  decidable_of_iff' _ occupies_iff

theorem rightUnique_occupies (t : StructTable) (o : Outline) :
    Relator.RightUnique (t.Occupies o) := by
  rintro m ⟨offset, limit⟩ ⟨offset', limit'⟩ h h'
  obtain ⟨_, _, hsize, hlimit⟩ := h.size
  obtain ⟨_, _, hsize', hlimit'⟩ := h'.size
  cases hsize.symm.trans hsize'
  obtain rfl : offset = offset' := Option.some.inj (h.offset.symm.trans h'.offset)
  rw [StructRange.mk.injEq]
  exact ⟨rfl, hlimit.trans hlimit'.symm⟩

theorem exists_places (hb : o.toBinary.Framed) (t : StructTable)
    (h : ∀ m ∈ members, m.offset?.isSome) :
    ∃ places, Forall₂ (t.Occupies o) members places := by
  induction members
  case nil => exact ⟨[], .nil⟩
  case cons m members hi =>
    rw [forall_mem_cons] at h
    obtain ⟨offset, hoffset⟩ := Option.isSome_iff_exists.mp h.left
    obtain ⟨⟨size, lengths⟩, hsize⟩ := memberSize_succeeds hb t m
    obtain ⟨places, hplaces⟩ := hi h.right
    exact ⟨⟨offset, offset + size⟩ :: places, .cons ⟨hoffset, size, lengths, hsize, rfl⟩ hplaces⟩

theorem Occupies.offset_le {m : StructMember} {r : StructRange} (h : t.Occupies o m r) :
    r.offset ≤ r.limit := by
  obtain ⟨size, _, _, hlimit⟩ := h.size
  omega

theorem ends_of_rangeOf (h : t.rangeOf o members = .ok (range, lengths))
    (hp : Forall₂ (t.Occupies o) members places) (hb : StructRange.Beside places) :
    (∃ r ∈ places, r.offset = range.offset) ∧ (∀ r ∈ places, range.offset ≤ r.offset)
      ∧ ∃ top, StructRange.IsTop places top ∧ top.limit = range.limit := by
  cases hm : highest? members
  case none =>
    obtain ⟨r, hr⟩ := exists_mem_of_ne_nil places hb.nonempty
    obtain ⟨m, hmem, hplace⟩ := exists_of_mem_forall₂ hp hr
    cases (highest?_eq_none_iff.mp hm m hmem).symm.trans hplace.offset
  case some best =>
    obtain ⟨offset, m⟩ := best
    obtain ⟨hmem, hoffset, hhighest⟩ := highest?_eq_some hm
    obtain ⟨⟨size, hsize, hlimit⟩, ⟨low, hlow, hlowest⟩, hle⟩ := of_rangeOf hm h
    obtain ⟨top, htop, hplace⟩ := exists_of_mem_forall₂ hp.flip hmem
    obtain ⟨bottom, hbottom, hplace'⟩ := exists_of_mem_forall₂ hp.flip hlow
    obtain rfl : offset = top.offset := Option.some.inj (hoffset.symm.trans hplace.offset)
    refine ⟨⟨bottom, hbottom, ?_⟩, fun r hr => ?_, top, ⟨htop, fun r hr => ?_⟩, ?_⟩
    · exact Option.some.inj (hplace'.offset.symm.trans hlowest)
    · obtain ⟨m, hm, hr⟩ := exists_of_mem_forall₂ hp hr
      exact hle m hm _ hr.offset
    · obtain ⟨m, hm, hr⟩ := exists_of_mem_forall₂ hp hr
      exact hhighest m hm _ hr.offset
    · obtain ⟨_, _, hsize', hends⟩ := hplace.size
      cases hsize.symm.trans hsize'
      have hfits := hb.fits top htop
      rw [hlimit, cappedAdd, capped_of_le (hends ▸ hfits), hends]

variable {t' : StructTable} {m : StructMember} {past : List Instruction} {c : Instruction}
  {cid : Id}

theorem memberSize_congr (h : ∀ y ∈ m.struct, t[y]? = t'[y]?) :
    t.memberSize o m = t'.memberSize o m := by
  unfold memberSize
  cases hs : m.struct
  case none => cases (o.decorationsOf m.type).base.arrayStride <;> rfl
  case some y =>
    have hlimit : t.limitOf (some y) = t'.limitOf (some y) := by
      simp only [limitOf, Option.bind_some, h y hs]
    cases (o.decorationsOf m.type).base.arrayStride <;> simp only [hlimit]

theorem rangeOf_congr (h : ∀ m ∈ members, ∀ y ∈ m.struct, t[y]? = t'[y]?) :
    t.rangeOf o members = t'.rangeOf o members := by
  unfold rangeOf
  split
  case h_1 offset m hm => rw [memberSize_congr (h m (highest?_eq_some hm).left)]
  case h_2 => rw [mapM_congr_of_mem fun m hm => memberSize_congr (h m hm)]

-- What the table says once the structs `past` are laid out: every range is the one of the members
-- by this very table.
structure Settled (t : StructTable) (o : Outline) (past : List Instruction) : Prop where
  keys   : ∀ id ∈ t, ∃ i ∈ past, i.resultId? = some id
  nested : ∀ (id : Id) (info : StructInfo), t[id]? = some info →
    ∀ m ∈ info.members, ∀ y ∈ m.struct, y ∈ t
  ranges : ∀ (id : Id) (info : StructInfo), t[id]? = some info →
    ∃ lengths, t.rangeOf o info.members = .ok (info.range, lengths)

theorem mem_of_member? {d : DecorationSet} {index : Nat} {x y : Id}
    (h : t.member? o d index x = .ok (some m)) (hy : y ∈ m.struct) : y ∈ t := by
  obtain ⟨_, base, _, _, rfl⟩ := of_member? h
  exact Std.TreeMap.contains_iff_mem.mp (Option.mem_filter_iff.mp hy).right

namespace Settled

-- What is new is looked up by no member that the table has, and the members of the new struct look
-- up what is old.
theorem insert {info : StructInfo} (h : t.Settled o past) (hid : c.resultId? = some cid)
    (hfresh : cid ∉ t) (hnested : ∀ m ∈ info.members, ∀ y ∈ m.struct, y ∈ t)
    (hrange : t.rangeOf o info.members = .ok (info.range, lengths)) :
    Settled (t.insert cid info) o (past ++ [c]) := by
  have hsame (y : Id) (hy : y ∈ t) : t[y]? = (t.insert cid info)[y]? := by
    have hne : cid ≠ y := fun heq => hfresh (heq ▸ hy)
    simp [Std.TreeMap.getElem?_insert, hne]
  have hcases (id : Id) (found : StructInfo) (hf : (t.insert cid info)[id]? = some found) :
      t[id]? = some found ∨ info = found := by
    rw [Std.TreeMap.getElem?_insert] at hf
    split at hf
    · exact .inr (Option.some.inj hf)
    · exact .inl hf
  refine ⟨fun id hmem => ?_, fun id found hf m hm y hy => ?_, fun id found hf => ?_⟩
  · obtain heq | hmem : cid = id ∨ id ∈ t := by simpa using hmem
    · exact ⟨c, by simp, heq ▸ hid⟩
    · obtain ⟨i, hi, hid⟩ := h.keys id hmem
      exact ⟨i, mem_append_left _ hi, hid⟩
  · refine Std.TreeMap.mem_insert.mpr (.inr ?_)
    obtain hold | rfl := hcases id found hf
    · exact h.nested id found hold m hm y hy
    · exact hnested m hm y hy
  · obtain hold | rfl := hcases id found hf
    · rw [← rangeOf_congr fun m hm y hy => hsame y (h.nested id found hold m hm y hy)]
      exact h.ranges id found hold
    · rw [← rangeOf_congr fun m hm y hy => hsame y (hnested m hm y hy)]
      exact ⟨lengths, hrange⟩

variable (hr : o.IsRead) (hbefore : ∀ j, j ∈ past ↔ j ∈ o.structInstructions ∧ j.index < c.index)
  (hc : c ∈ o.structInstructions) (h : t.Settled o past)

include hr hbefore hc h

theorem fresh (hid : c.resultId? = some cid) : cid ∉ t := by
  intro hmem
  obtain ⟨i, hi, hid'⟩ := h.keys cid hmem
  obtain ⟨hi, hlt⟩ := (hbefore i).mp hi
  have hdi := hr.indexed.definition?_eq_some_iff.mpr ⟨(hr.mem_structInstructions.mp hi).left, hid'⟩
  have hdc := hr.indexed.definition?_eq_some_iff.mpr ⟨(hr.mem_structInstructions.mp hc).left, hid⟩
  obtain rfl : i = c := Option.some.inj (hdi.symm.trans hdc)
  exact Nat.lt_irrefl _ hlt

theorem addStruct (ha : t.addStruct o c = .ok t') : t'.Settled o (past ++ [c]) := by
  obtain ⟨hid, rfl⟩ | ⟨cid, info, lengths, hid, rfl, hmembers, hrange⟩ := of_addStruct ha
  · refine ⟨fun id hmem => ?_, h.nested, h.ranges⟩
    obtain ⟨i, hi, hid⟩ := h.keys id hmem
    exact ⟨i, mem_append_left _ hi, hid⟩
  · refine h.insert hid (fresh hr hbefore hc h hid) (fun m hm y hy => ?_) hrange
    obtain ⟨x, _, hx⟩ := (mem_of_filterMapM hmembers).mp hm
    exact mem_of_member? hx hy

end Settled

end StructTable

-- A range starts no later than it ends, so that its size is what lies between. Where members stand
-- one beside the other, in whatever order they are declared, both ends of the range are ends of
-- members, and it covers all of them unless the last place, taking no bytes, is inside another.
theorem range_covers_members {words : List Word} {m : Module} (hm : Module.ofWords words = .ok m) :
    (∀ (id : Id) (info : StructInfo), m.structs[id]? = some info →
      info.range.offset ≤ info.range.limit
      ∧ ((∀ x ∈ info.members, x.offset?.isSome) →
        ∃ places, Forall₂ (m.structs.Occupies m.toOutline) info.members places
          ∧ (StructRange.Beside places →
            (∃ r ∈ places, r.offset = info.range.offset)
              ∧ (∃ r ∈ places, r.limit = info.range.limit)
              ∧ ((∀ r ∈ places, info.range.Covers r) ↔
                ∀ top, StructRange.IsTop places top → ∀ r ∈ places, ¬r.Interrupted top))))
      ∧ ∀ (v : Id) (p : PushConstants), m.pushConstants? v = .ok (some p) →
        p.struct.range.offset + p.struct.range.size = p.struct.range.limit := by
  have hr := (Module.isAnalysed_of_ofWords hm).toIsRead
  -- Each struct is settled from those before it, in the order of the declarations.
  have hsettled := StructTable.of_foldlM hr (nil_append _).symm (StructTable.Settled.addStruct hr)
    ⟨by simp, by simp, by simp⟩ (Module.structs_of_ofWords hm)
  have hle (id : Id) (info : StructInfo) (h : m.structs[id]? = some info) : info.range.offset
      ≤ info.range.limit := by
    obtain ⟨_, hrange⟩ := hsettled.ranges id info h
    exact StructTable.offset_le_limit hrange
  refine ⟨fun id info hinfo => ⟨hle id info hinfo, fun hoffsets => ?_⟩, fun v p hp => ?_⟩
  · obtain ⟨_, hrange⟩ := hsettled.ranges id info hinfo
    obtain ⟨places, hplaces⟩ := StructTable.exists_places hr.indexed.framed m.structs hoffsets
    have hup (r : StructRange) (hr : r ∈ places) : r.offset ≤ r.limit := by
      obtain ⟨_, _, hr⟩ := exists_of_mem_forall₂ hplaces hr
      exact hr.offset_le
    refine ⟨places, hplaces, fun hb => ?_⟩
    obtain ⟨hfirst, hlow, top, htop, hlimit⟩ := StructTable.ends_of_rangeOf hrange hplaces hb
    exact ⟨hfirst, ⟨top, htop.left, hlimit⟩, hb.covers_iff hup hlow htop hlimit⟩
  · unfold Findings.pushConstants? at hp
    obtain ⟨base, _, hp⟩ := ok_of_bind hp
    cases base
    case none => cases hp
    case some base =>
      obtain ⟨info, hinfo, rfl⟩ := Option.map_eq_some_iff.mp (Except.ok.inj hp)
      obtain ⟨id, _, hinfo⟩ := Option.bind_eq_some_iff.mp hinfo
      exact Nat.add_sub_cancel' (hle id info hinfo)

namespace Extent

-- A struct 5 of push constants: a struct, three words one after the other, and one word, from the
-- last to the first.
def scattered : List Word :=
  [119734787, 66816, 0, 8, 0, 262215, 3, 6, 16, 327752, 4, 0, 35, 0, 327752, 4, 1, 35, 4, 327752, 5,
    0, 35, 64, 327752, 5, 1, 35, 16, 327752, 5, 2, 35, 8, 262165, 1, 32, 0, 262187, 1, 2, 3, 262172,
    3, 1, 2, 262174, 4, 1, 1, 327710, 5,
    4, 3, 1, 262176, 6, 9, 5, 262203, 6, 7, 9]

theorem range_covers_members_scattered :
    ∃ (m : Module) (info : StructInfo) (places : List StructRange)
      (p : PushConstants), Module.ofWords scattered = .ok m ∧ m.structs[(5 : Id)]? = some info
        ∧ info.range = ⟨8, 72⟩ ∧ Forall₂ (m.structs.Occupies m.toOutline) info.members places
        ∧ places = [⟨64, 72⟩, ⟨16, 64⟩, ⟨8, 12⟩] ∧ (∀ r ∈ places, info.range.Covers r)
        ∧ m.pushConstants? 7 = .ok (some p)
        ∧ p.struct.range.offset + p.struct.range.size = p.struct.range.limit := by
  obtain ⟨m, hm, hinfo, hp⟩ : ∃ m, Module.ofWords scattered = .ok m
      ∧ (m.structs[(5 : Id)]?.any fun info => info.range = ⟨8, 72⟩
        ∧ info.members.all (·.offset?.isSome)
        ∧ Forall₂ (m.structs.Occupies m.toOutline) info.members [⟨64, 72⟩, ⟨16, 64⟩, ⟨8, 12⟩])
      ∧ (m.pushConstants? 7).map (·.isSome) = .ok true :=
    exists_ok_of_decide (by decide +kernel)
  obtain ⟨info, hinfo, h⟩ := Option.any_eq_true _ _ |>.mp hinfo
  obtain ⟨hrange, hall, hplaces⟩ := of_decide_eq_true h
  obtain ⟨hstructs, hpush⟩ := range_covers_members hm
  obtain ⟨places, hplaces', h⟩ := (hstructs 5 info hinfo).right (all_eq_true.mp hall)
  obtain rfl := right_unique_forall₂' (StructTable.rightUnique_occupies _ _) hplaces' hplaces
  have hb : StructRange.Beside [⟨64, 72⟩, ⟨16, 64⟩, ⟨8, 12⟩] := by decide
  obtain ⟨_, _, hcovers⟩ := h hb
  have hall : ∀ r ∈ [⟨64, 72⟩, ⟨16, 64⟩, ⟨8, 12⟩], info.range.Covers r := by
    refine hcovers.mpr fun top ht => ?_
    obtain rfl : ⟨64, 72⟩ = top := hb.top_eq ⟨by decide, by decide⟩ ht
    simp [StructRange.Interrupted]
  obtain ⟨p, hp⟩ : ∃ p, m.pushConstants? 7 = .ok (some p) := by
    cases hv : m.pushConstants? 7 <;> rw [hv] at hp
    case error => cases hp
    case ok p =>
      obtain ⟨p, rfl⟩ := Option.isSome_iff_exists.mp (Except.ok.inj hp)
      exact ⟨p, rfl⟩
  exact ⟨m, info, _, p, hm, hinfo, hrange, hplaces, rfl, hall, hp, hpush 7 p hp⟩

-- A struct 5 of four words and, within them, of as many more as there are, and a struct 6 of
-- nothing.
def overhang : List Word :=
  [119734787, 66816, 0, 7, 0, 327752, 5, 0, 35, 0, 327752, 5, 1, 35, 8, 262165, 1, 32, 0, 262187, 1,
    2, 4, 262172, 3, 1, 2, 196637, 4, 1, 262174, 5, 3, 4, 131102, 6]

theorem range_overhang : ∃ (m : Module) (info empty : StructInfo) (places : List StructRange),
    Module.ofWords overhang = .ok m ∧ m.structs[(5 : Id)]? = some info
      ∧ Forall₂ (m.structs.Occupies m.toOutline) info.members places ∧ StructRange.Beside places
      ∧ (∃ r ∈ places, ¬info.range.Covers r) ∧ m.structs[(6 : Id)]? = some empty
      ∧ empty.members = [] := by
  obtain ⟨m, hm, hinfo, hempty⟩ : ∃ m, Module.ofWords overhang = .ok m
      ∧ (m.structs[(5 : Id)]?.any fun info => info.range = ⟨0, 8⟩
        ∧ Forall₂ (m.structs.Occupies m.toOutline) info.members [⟨0, 16⟩, ⟨8, 8⟩])
      ∧ m.structs[(6 : Id)]?.map (·.members) = some [] :=
    exists_ok_of_decide (by decide +kernel)
  obtain ⟨info, hinfo, h⟩ := Option.any_eq_true _ _ |>.mp hinfo
  obtain ⟨hrange, hplaces⟩ := of_decide_eq_true h
  obtain ⟨empty, hempty, hnil⟩ := Option.map_eq_some_iff.mp hempty
  refine ⟨m, info, empty, _, hm, hinfo, hplaces, by decide, ⟨_, mem_cons_self, ?_⟩, hempty, hnil⟩
  rw [hrange]
  exact fun h => absurd h.right (by decide)

end Extent
end Shader
