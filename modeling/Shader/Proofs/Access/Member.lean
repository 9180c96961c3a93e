import Shader.Proofs.Access.Variable

namespace Shader

open List Relation

namespace AccessFlag

theorem position?_atomicWrite_of_write {op : Op} {n : Nat} (h : position? .write op = some n) :
    position? .atomicWrite op = none := by
  simp only [position?] at h
  split at h
  case h_1 | h_2 | h_3 | h_4 | h_5 => rfl
  case h_6 => cases h

end AccessFlag

namespace Instruction

variable {i : Instruction} {p q : Id}

def Writes (i : Instruction) (p : Id) : Prop :=
  i.pointer? .write = some p ∨ i.pointer? .atomicWrite = some p

theorem pointer?_atomicWrite_of_write (h : i.pointer? .write = some p) :
    i.pointer? .atomicWrite = none := by
  obtain ⟨n, hn, _⟩ := Option.bind_eq_some_iff.mp h
  obtain ⟨op, ho, hn⟩ := Option.bind_eq_some_iff.mp hn
  rw [pointer?, ho, Option.bind_some, AccessFlag.position?_atomicWrite_of_write hn]
  rfl

theorem Writes.unique (hp : i.Writes p) (hq : i.Writes q) : p = q := by
  have hone {p q : Id} (hp : i.pointer? .write = some p) (hq : i.pointer? .atomicWrite = some q) :
      False := by
    simp [pointer?_atomicWrite_of_write hp] at hq
  cases hp
  case inl hp =>
    cases hq
    case inl hq => exact Option.some.inj (hp.symm.trans hq)
    case inr hq => exact (hone hp hq).elim
  case inr hp =>
    cases hq
    case inl hq => exact (hone hq hp).elim
    case inr hq => exact Option.some.inj (hp.symm.trans hq)

end Instruction

namespace VariableAccess

variable {a : VariableAccess} {v f : Id} {member : Word}

theorem writes_iff : a.writes ↔ a.flags.has .write ∨ a.flags.has .atomicWrite := by
  show (a.flags.bits &&& (BitVec.twoPow 32 1 ||| BitVec.twoPow 32 3) != 0#32)
    ↔ (a.flags.bits &&& BitVec.twoPow 32 1 != 0#32) ∨ (a.flags.bits &&& BitVec.twoPow 32 3 != 0#32)
  rw [BitVec.and_or_distrib_left]
  simp only [bne_iff_ne, ne_eq, BitVec.or_eq_zero_iff, not_and_or]

-- The access writes in `f` to this member of `v`, or to a member that is not known.
structure Covers (a : VariableAccess) (v f : Id) (member : Word) : Prop where
  target   : a.target = v
  function : a.function = some f
  writes   : a.writes
  member   : a.member = some member ∨ a.member = none

theorem Covers.isIn (h : a.Covers v f member) {reached : Std.TreeSet Id} (hf : reached.contains f) :
    a.isIn v reached := by
  simp [VariableAccess.isIn, h.target, h.function, hf]

end VariableAccess

namespace Outline

variable {o : Outline} {i : Instruction} {p q : Place} {a v f : Id} {member : Word}

-- Some path from `a` ends with an access chain that selects the member in the variable `v` itself.
def Selects (o : Outline) (a v : Id) (member : Word) : Prop :=
  ∃ c chain, ReflTransGen (o.Derives Op.pointerBase o.stream) a c ∧ o.Chains chain c v
    ∧ o.selectedMember? chain v = .ok (some member)

theorem origins_variable (h : o.opOf? p.id = some .variable) : o.origins p = .ok [] := by
  obtain ⟨i, hd, ho⟩ := Option.bind_eq_some_iff.mp h
  unfold origins
  simp only [hd, ho]
  rfl

namespace IsRead

variable (h : o.IsRead)

include h

-- A place that has a member is a variable, so it has the member from the step that led to it.
theorem selects_of_reaches
    (hr : ReflTransGen (fun p q => q ∈ (o.origins p).toOption.getD []) ⟨a, none⟩ q)
    (hm : q.member = some member) : o.opOf? q.id = some .variable ∧ o.Selects a q.id member := by
  induction hr generalizing member
  case refl => cases hm
  case tail p q hp hq hi =>
    obtain ⟨ps, hps⟩ := origins_succeeds h.indexed.framed p
    rw [hps] at hq
    have hnone : p.member = none := by
      by_contra hsome
      obtain ⟨member', hm'⟩ := Option.ne_none_iff_exists'.mp hsome
      rw [origins_variable (hi hm').left] at hps
      cases hps
      cases hq
    cases of_origins hps
    case base =>
      obtain rfl := mem_singleton.mp hq
      cases hnone.symm.trans hm
    case member chain c selected hc hs =>
      obtain rfl := mem_singleton.mp hq
      cases hm
      exact ⟨hc.target, p.id, chain, h.derives_of_reaches hp, hc, hs⟩
    case argument =>
      obtain ⟨x, _, rfl⟩ := mem_map.mp hq
      cases hnone.symm.trans hm
    case none => cases hq

theorem selects_of_mem_variablesOf {places : List Place} (hp : o.variablesOf a = .ok places)
    (hq : q ∈ places) (hm : q.member = some member) : o.Selects a q.id member := by
  obtain ⟨met, hmet, hp⟩ := ok_of_bind hp
  cases hp
  exact (h.selects_of_reaches (h.reaches_of_mem_places hmet (mem_of_mem_filter hq)) hm).right

end IsRead

theorem derives_of_selects (hs : o.Selects a v member) :
    o.opOf? v = some .variable ∧ ReflTransGen (o.Derives Op.pointerBase o.stream) a v := by
  obtain ⟨c, chain, hder, hc, _⟩ := hs
  exact ⟨hc.target, hder.tail hc.derives⟩

theorem eq_of_mem_variablesOf {places : List Place} (hp : o.variablesOf a = .ok places)
    (hq : p ∈ places) (hq' : q ∈ places) (hid : p.id = q.id) : p = q := by
  obtain ⟨met, hmet, hp⟩ := ok_of_bind hp
  cases hp
  have hn : (met.map Place.id).Nodup := of_checkedSearch hmet ▸ nodup_search ..
  exact inj_on_of_nodup_map hn (mem_of_mem_filter hq) (mem_of_mem_filter hq') hid

theorem mem_writing_accessesOf {as : List VariableAccess} (ha : o.accessesOf i = .ok as)
    (hw : i.Writes a) {access : VariableAccess} (hmem : access ∈ as) (hwrites : access.writes) :
    ∃ places, o.variablesOf a = .ok places ∧ ∃ q ∈ places, access.target = q.id
      ∧ access.member = q.member := by
  obtain ⟨accessed, hi, x, hx, places, hp, q, hq, rfl⟩ := (mem_accessesOf ha).mp hmem
  have hpointer : i.Writes x.1 :=
    (VariableAccess.writes_iff.mp hwrites).imp
      (fun hf => (Instruction.mem_accessed hi _ _).mp ⟨_, hx, hf⟩)
      (fun hf => (Instruction.mem_accessed hi _ _).mp ⟨_, hx, hf⟩)
  exact ⟨places, hw.unique hpointer ▸ hp, q, hq, rfl, rfl⟩

theorem function_of_mem_accessesOf {as : List VariableAccess} (ha : o.accessesOf i = .ok as)
    {access : VariableAccess} (hmem : access ∈ as) : access.function = o.functionOf? i.index := by
  obtain ⟨_, _, _, _, _, _, _, _, rfl⟩ := (mem_accessesOf ha).mp hmem
  rfl

theorem IsRead.covers_selected_iff (h : o.IsRead) {as : List VariableAccess}
    (ha : o.accessesOf i = .ok as) (hw : i.Writes a) (hf : o.functionOf? i.index = some f) :
    (∀ member, o.Selects a v member → ∃ access ∈ as, access.Covers v f member)
      ↔ (∀ x y, o.Selects a v x → o.Selects a v y → x = y)
        ∨ ∃ access ∈ as, access.target = v ∧ access.writes ∧ access.member = none := by
  have hfunction {access : VariableAccess} (hmem : access ∈ as) : access.function = some f :=
    (function_of_mem_accessesOf ha hmem).trans hf
  constructor
  case mp =>
    intro hall
    by_contra hnot
    obtain ⟨hdiffer, hnone⟩ := not_or.mp hnot
    refine hdiffer fun x y hx hy => ?_
    -- No access stands for the whole variable, so each selected member is kept as such.
    have hknown {member : Word} (hs : o.Selects a v member) :
        ∃ places, o.variablesOf a = .ok places ∧ ⟨v, some member⟩ ∈ places := by
      obtain ⟨access, hmem, hc⟩ := hall member hs
      obtain ⟨places, hp, q, hq, ht, hm⟩ := mem_writing_accessesOf ha hw hmem hc.writes
      have hmember := hc.member.resolve_right fun hn =>
        hnone ⟨access, hmem, hc.target, hc.writes, hn⟩
      have heq : (⟨v, some member⟩ : Place) = q := by rw [← hc.target, ← hmember, ht, hm]
      exact ⟨places, hp, heq ▸ hq⟩
    obtain ⟨places, hp, hqx⟩ := hknown hx
    obtain ⟨_, hp', hqy⟩ := hknown hy
    cases hp.symm.trans hp'
    cases eq_of_mem_variablesOf hp hqx hqy rfl
    rfl
  case mpr =>
    rintro (hsame | ⟨access, hmem, ht, hwrites, hnone⟩) member hs
    · obtain ⟨hv, hder⟩ := derives_of_selects hs
      have hwritten : ∃ access ∈ as, access.target = v ∧ access.writes := by
        cases hw
        case inl hp =>
          obtain ⟨access, hmem, ht, hflag⟩ :=
            (h.exists_mem_accessesOf ha .write).mpr ⟨a, hp, hv, hder⟩
          exact ⟨access, hmem, ht, VariableAccess.writes_iff.mpr (.inl hflag)⟩
        case inr hp =>
          obtain ⟨access, hmem, ht, hflag⟩ :=
            (h.exists_mem_accessesOf ha .atomicWrite).mpr ⟨a, hp, hv, hder⟩
          exact ⟨access, hmem, ht, VariableAccess.writes_iff.mpr (.inr hflag)⟩
      obtain ⟨access, hmem, rfl, hwrites⟩ := hwritten
      refine ⟨access, hmem, rfl, hfunction hmem, hwrites, ?_⟩
      obtain ⟨places, hp, q, hq, ht, hm⟩ := mem_writing_accessesOf ha hw hmem hwrites
      cases hk : access.member
      case none => exact .inr rfl
      case some kept =>
        have hkept := h.selects_of_mem_variablesOf hp hq (hm.symm.trans hk)
        exact .inl (congrArg some (hsame kept member (ht ▸ hkept) hs))
    · exact ⟨access, hmem, ht, hfunction hmem, hwrites, .inr hnone⟩

end Outline

namespace Findings

variable {f : Findings} {v : StageVariable}

theorem builtInsWritten_subset (member : Word) :
    f.builtInsWritten v (some member) ⊆ f.builtInsWritten v none := by
  intro b hb
  unfold builtInsWritten at hb ⊢
  cases hv : v.builtIn
  case some => simpa [hv] using hb
  case none =>
    simp only [hv, Option.mem_toList, Option.bind_eq_some_iff] at hb
    obtain ⟨d, hd, hb⟩ := hb
    refine mem_filterMap.mpr ⟨d, mem_map.mpr ⟨(member, d), ?_, rfl⟩, hb⟩
    exact Std.ExtTreeMap.mem_toList_iff_getElem?_eq_some.mpr hd

end Findings

namespace Module

variable {words : List Word} {m : Module} {i : Instruction} {p v f : Id} {member : Word}
  {e : EntryPoint}

structure Reports (m : Module) (v : Id) (member : Word) (e : EntryPoint) : Prop where
  members  : some member ∈ m.accesses.writtenMembers v e.reached
    ∨ none ∈ m.accesses.writtenMembers v e.reached
  builtIns : ∀ s ∈ e.stageVariables, s.id = v → s.storageClass = .output → s.isBuiltIn →
    ∀ b ∈ m.builtInsWritten s (some member), e.writes b

theorem mem_writtenMembers_of_covers {access : VariableAccess} (hmem : access ∈ m.accesses)
    (hc : access.Covers v f member) (hf : e.reached.contains f) :
    access.member ∈ m.accesses.writtenMembers v e.reached :=
  mem_map.mpr ⟨access, mem_filter.mpr ⟨hmem, by simp [hc.isIn hf, hc.writes]⟩, rfl⟩

theorem IsAnalysed.reports_of_covers (h : m.IsAnalysed) {access : VariableAccess}
    (hmem : access ∈ m.accesses) (hc : access.Covers v f member) (he : e ∈ m.entryPoints)
    (hf : e.reached.contains f) : m.Reports v member e where
  members  := by
    have hwritten := mem_writtenMembers_of_covers hmem hc hf
    obtain hm | hm := hc.member
    · exact .inl (hm ▸ hwritten)
    · exact .inr (hm ▸ hwritten)
  builtIns := by
    rintro s hs rfl hout hbuiltIn b hb
    have hb' : b ∈ m.builtInsWritten s access.member := by
      obtain hm | hm := hc.member
      · exact hm ▸ hb
      · exact hm ▸ Findings.builtInsWritten_subset member hb
    rw [EntryPoint.writes, (h.of_mem_entryPoints he).right, contains_iff_mem,
      Findings.writtenBuiltIns]
    refine mem_flatMap.mpr ⟨s, mem_filter.mpr ⟨hs, by simp [hout, hbuiltIn]⟩, ?_⟩
    exact mem_flatMap.mpr ⟨access.member, mem_writtenMembers_of_covers hmem hc hf, hb'⟩

-- An instruction keeps every member that its pointer may select exactly if there is only one, or
-- what it keeps names no member. What is kept is reported for every entry point that reaches the
-- function.
theorem covers_selected_iff_one (h : ofWords words = .ok m) (hi : i ∈ m.instructions.toList)
    (hp : i.Writes p) (hf : m.functionOf? i.index = some f) (v : Id) :
    ∃ as, m.accessesOf i = .ok as ∧ as ⊆ m.accesses
      ∧ ((∀ member, m.Selects p v member → ∃ access ∈ as, access.Covers v f member)
        ↔ (∀ x y, m.Selects p v x → m.Selects p v y → x = y)
          ∨ ∃ access ∈ as, access.target = v ∧ access.writes ∧ access.member = none)
      ∧ ∀ member, (∃ access ∈ as, access.Covers v f member) →
        ∀ e ∈ m.entryPoints, e.reached.contains f → m.Reports v member e := by
  have hm := isAnalysed_of_ofWords h
  obtain ⟨as, ha⟩ := hm.accessesOf_succeeds hi
  have hsub : as ⊆ m.accesses :=
    fun a hmem => (Outline.mem_variableAccesses hm.accesses).mpr ⟨i, hi, as, ha, hmem⟩
  refine ⟨as, ha, hsub, hm.toIsRead.covers_selected_iff ha hp hf, ?_⟩
  rintro member ⟨access, hmem, hc⟩ e he hreached
  exact hm.reports_of_covers (hsub hmem) hc he hreached

-- A function stores through its parameter. It is called with a pointer to each member of an output
-- block, the first of which is the layer and the second the viewport.
def storesToBothMembers : List Word :=
  [Header.magicNumber, 0x00010500, 0, 20, 0, 0x20011, 1, 0x3000E, 0, 1, 0x6000F, 0, 14,
   0x6E69616D, 0, 10, 0x50048, 4, 0, 11, 9, 0x50048, 4, 1, 11, 10, 0x30047, 4, 2,
   0x20013, 1, 0x30021, 2, 1, 0x40015, 3, 32, 1, 0x4001E, 4, 3, 3, 0x40020, 5, 3, 4,
   0x40020, 6, 3, 3, 0x40021, 7, 1, 6, 0x4002B, 3, 8, 0, 0x4002B, 3, 9, 1, 0x4003B, 5, 10, 3,
   0x50036, 1, 11, 0, 7, 0x30037, 6, 12, 0x200F8, 13, 0x3003E, 12, 9, 0x100FD, 0x10038,
   0x50036, 1, 14, 0, 2, 0x200F8, 15, 0x50041, 6, 16, 10, 8, 0x50039, 1, 17, 11, 16,
   0x50041, 6, 18, 10, 9, 0x50039, 1, 19, 11, 18, 0x100FD, 0x10038]

theorem selects_of_origins (h : ofWords words = .ok m) {a c : Id} {ps : List Place}
    (ho : m.origins ⟨a, none⟩ = .ok ps) (hc : ∃ q ∈ ps, q.id = c) {chain : Instruction}
    (hchain : m.Chains chain c v) (hs : m.selectedMember? chain v = .ok (some member)) :
    m.Selects a v member :=
  ⟨c, chain, .single (((isAnalysed_of_ofWords h).toIsRead.exists_mem_origins ho).mp hc), hchain, hs⟩

theorem selects_storesToBothMembers (h : ofWords storesToBothMembers = .ok m) :
    m.Selects 12 10 0 ∧ m.Selects 12 10 1 := by
  have hfacts : ∃ m, ofWords storesToBothMembers = .ok m
      ∧ m.origins ⟨12, none⟩ = .ok [⟨18, none⟩, ⟨16, none⟩]
      ∧ m.opOf? 10 = some .variable
      ∧ (∃ i ∈ m.instructions.toList, m.definition? 16 = some i ∧ i.op? = some .accessChain
        ∧ i.word? 3 = some 10
        ∧ m.selectedMember? i 10 = .ok (some 0))
      ∧ ∃ i ∈ m.instructions.toList, m.definition? 18 = some i ∧ i.op? = some .accessChain
      ∧ i.word? 3 = some 10
        ∧ m.selectedMember? i 10 = .ok (some 1) :=
    exists_ok_of_decide (by decide +kernel)
  obtain ⟨m', hm, ho, hv, ⟨i, _, hi, hop, hbase, hs⟩, j, _, hj, hop', hbase', hs'⟩ := hfacts
  cases h.symm.trans hm
  exact ⟨selects_of_origins h ho (by simp) ⟨hi, ⟨_, hop, rfl⟩, hbase, hv⟩ hs,
    selects_of_origins h ho (by simp) ⟨hj, ⟨_, hop', rfl⟩, hbase', hv⟩ hs'⟩

theorem covers_selected_iff_one_storesToBothMembers : ∃ m, ofWords storesToBothMembers = .ok m
    ∧ ∃ i ∈ m.instructions.toList, i.Writes 12 ∧ m.functionOf? i.index = some 11
    ∧ ∃ as, m.accessesOf i = .ok as
      ∧ ¬(∀ member, m.Selects 12 10 member → ∃ access ∈ as, access.Covers 10 11 member)
      ∧ ∃ e ∈ m.entryPoints, e.reached.contains 11 ∧ m.Reports 10 1 e := by
  have hfacts : ∃ m, ofWords storesToBothMembers = .ok m
      ∧ (∃ i ∈ m.instructions.toList, i.pointer? .write = some 12 ∧ m.functionOf? i.index = some 11
        ∧ m.accessesOf i = .ok [⟨10, {.write}, some 1, some 11⟩])
      ∧ ∃ e ∈ m.entryPoints, e.reached.contains 11 :=
    exists_ok_of_decide (by decide +kernel)
  obtain ⟨m, hm, ⟨i, hi, hp, hf, ha⟩, e, he, hreached⟩ := hfacts
  obtain ⟨hzero, hone⟩ := selects_storesToBothMembers hm
  obtain ⟨as, ha', _, hiff, hreports⟩ := covers_selected_iff_one hm hi (.inl hp) hf 10
  cases ha.symm.trans ha'
  refine ⟨m, hm, i, hi, .inl hp, hf, _, ha, fun hall => ?_, e, he, hreached, ?_⟩
  · obtain hsame | hnone := hiff.mp hall
    · exact absurd (hsame 0 1 hzero hone) (by decide)
    · simp at hnone
  · exact hreports 1 ⟨_, mem_singleton_self _, rfl, rfl, by decide, .inl rfl⟩ e he hreached

-- The store may write the layer, and the layer is not reported.
theorem layer_lost_storesToBothMembers : ∃ m, ofWords storesToBothMembers = .ok m
    ∧ (∃ i ∈ m.instructions.toList, i.Writes 12 ∧ m.functionOf? i.index = some 11)
    ∧ m.Selects 12 10 0
    ∧ (∀ access ∈ m.accesses, ¬access.Covers 10 11 0)
    ∧ ∃ e ∈ m.entryPoints, e.reached.contains 11 ∧ ¬m.Reports 10 0 e
      ∧ (∃ s ∈ e.stageVariables, s.id = 10 ∧ .layer ∈ m.builtInsWritten s (some 0))
      ∧ ¬e.writes .layer := by
  have hfacts : ∃ m, ofWords storesToBothMembers = .ok m
      ∧ (∃ i ∈ m.instructions.toList, i.pointer? .write = some 12 ∧ m.functionOf? i.index = some 11)
      ∧ (∀ access ∈ m.accesses, access.member = some 1)
      ∧ ∃ e ∈ m.entryPoints, e.reached.contains 11
      ∧ m.accesses.writtenMembers 10 e.reached = [some 1]
        ∧ (∃ s ∈ e.stageVariables, s.id = 10 ∧ .layer ∈ m.builtInsWritten s (some 0))
        ∧ ¬e.writes .layer :=
    exists_ok_of_decide (by decide +kernel)
  obtain ⟨m, hm, ⟨i, hi, hp, hf⟩, hone, e, he, hreached, hwritten, hlayer⟩ := hfacts
  refine ⟨m, hm, ⟨i, hi, .inl hp, hf⟩, (selects_storesToBothMembers hm).left, fun access hmem hc =>
    ?_, e, he, hreached, fun hr => ?_, hlayer⟩
  · simpa [hone access hmem] using hc.member
  · simpa [hwritten] using hr.members

end Module
end Shader
