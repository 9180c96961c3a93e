import Shader.Proofs.Access.Argument
import Shader.Proofs.Analysis.Reachable

namespace Shader

open List Relation

namespace FlagSet

variable {F : Type} [FlagKind F] {f : F}

theorem has_empty : (∅ : FlagSet F).has f = false := by
  show (0#32 &&& _ != 0#32) = false
  simp

theorem has_union (a b : FlagSet F) : (a ∪ b).has f = (a.has f || b.has f) := by
  show ((a.bits ||| b.bits) &&& _ != 0#32) = (a.bits &&& _ != 0#32 || b.bits &&& _ != 0#32)
  rw [BitVec.and_or_distrib_right, Bool.eq_iff_iff]
  simp only [bne_iff_ne, ne_eq, BitVec.or_eq_zero_iff, not_and_or, Bool.or_eq_true]

end FlagSet

namespace AccessFlag

theorem has_singleton (a b : AccessFlag) : ({a} : FlagSet AccessFlag).has b = decide (a = b) := by
  cases a <;> cases b <;> decide

theorem has_pair (a b c : AccessFlag) :
    ({a, b} : FlagSet AccessFlag).has c = decide (a = c ∨ b = c) := by
  rw [Bool.decide_or, ← has_singleton, ← has_singleton]
  exact FlagSet.has_union {a} {b}

end AccessFlag

namespace VariableAccesses

theorem has_unite {flag : AccessFlag} (as : List VariableAccess) :
    (unite as).has flag ↔ ∃ a ∈ as, a.flags.has flag := by
  have hfold (flags : FlagSet AccessFlag) :
      (as.foldl (fun flags a => flags ∪ a.flags) flags).has flag ↔ flags.has flag
        ∨ ∃ a ∈ as, a.flags.has flag := by
    induction as generalizing flags
    case nil => simp
    case cons a as hi =>
      rw [foldl_cons, hi, FlagSet.has_union, Bool.or_eq_true, or_assoc]
      simp only [mem_cons, exists_eq_or_imp]
  simpa [unite, FlagSet.has_empty] using hfold ∅

end VariableAccesses

namespace AccessFlag

def position? : AccessFlag → Op → Option Nat
  | .read, op =>
    match op with
    | .load | .cooperativeMatrixLoadKHR | .cooperativeMatrixLoadNV => some 3
    | .copyMemory | .copyMemorySized => some 2
    | _ => none
  | .write, op =>
    match op with
    | .store | .cooperativeMatrixStoreKHR | .cooperativeMatrixStoreNV | .copyMemory
        | .copyMemorySized => some 1
    | _ => none
  | .atomicRead, op =>
    match op with
    | .atomicStore | .atomicFlagClear => none
    | op => if op.isAtomic then some 3 else none
  | .atomicWrite, op =>
    match op with
    | .atomicStore | .atomicFlagClear => some 1
    | .atomicLoad => none
    | op => if op.isAtomic then some 3 else none

end AccessFlag

namespace Instruction

variable {i : Instruction}

def pointer? (i : Instruction) (flag : AccessFlag) : Option Id :=
  (i.op?.bind flag.position?).bind i.word?

theorem mem_accessed {l : List (Id × FlagSet AccessFlag)} (h : i.accessed = .ok l)
    (flag : AccessFlag) (p : Id) :
    (∃ flags, (p, flags) ∈ l ∧ flags.has flag) ↔ i.pointer? flag = some p := by
  have hcons {w : Word} {flags : FlagSet AccessFlag} {l : List (Id × FlagSet AccessFlag)} :
      (∃ fs, (p, fs) ∈ (w, flags) :: l ∧ fs.has flag)
        ↔ flags.has flag ∧ w = p ∨ ∃ fs, (p, fs) ∈ l ∧ fs.has flag := by
    simp only [mem_cons, Prod.mk.injEq, or_and_right, exists_or, and_assoc, exists_and_left,
      exists_eq_left]
    rw [and_comm, eq_comm (a := p)]
  have hnil : (∃ fs, (p, fs) ∈ ([] : List (Id × FlagSet AccessFlag)) ∧ fs.has flag) ↔ False := by
    simp
  unfold accessed at h
  unfold pointer?
  split at h
  case h_1 ho =>
    cases h
    simp [ho]
  case h_2 op ho =>
    rw [ho, Option.bind_some]
    split at h
    case h_1 | h_2 | h_3 | h_4 | h_5 | h_6 | h_9 | h_10 | h_11 =>
      obtain ⟨w, hw, h⟩ := ok_of_bind h
      cases h
      rw [hcons, hnil, AccessFlag.has_singleton]
      cases flag <;> simp [AccessFlag.position?, Op.isAtomic, word?_of_word hw]
    case h_7 | h_8 =>
      obtain ⟨w, hw, h⟩ := ok_of_bind h
      obtain ⟨w', hw', h⟩ := ok_of_bind h
      cases h
      rw [hcons, hcons, hnil, AccessFlag.has_singleton, AccessFlag.has_singleton]
      cases flag <;> simp [AccessFlag.position?, Op.isAtomic, word?_of_word hw, word?_of_word hw']
    case h_12 =>
      split at h
      case isTrue ha =>
        obtain ⟨w, hw, h⟩ := ok_of_bind h
        cases h
        rw [hcons, hnil, AccessFlag.has_pair]
        cases flag <;> simp_all [AccessFlag.position?, word?_of_word hw]
      case isFalse ha =>
        cases h
        rw [hnil]
        cases flag <;> simp_all [AccessFlag.position?]

end Instruction

namespace Op

variable {op : Op} {k : Nat}

def pointerBase : Op → List Nat
  | .imageTexelPointer | .copyObject | .copyLogical => [3]
  | op => if op.isAccessChain then [3] else []

theorem mem_pointerBase : k ∈ op.pointerBase
    ↔ k = 3 ∧ (op = .imageTexelPointer ∨ op = .copyObject ∨ op = .copyLogical
      ∨ op.isAccessChain) := by
  unfold pointerBase
  split <;> simp_all [and_comm]

end Op

namespace Outline

variable {o : Outline} {p q : Place} {ps : List Place} {a c v : Id}

structure Chains (o : Outline) (chain : Instruction) (a v : Id) : Prop where
  definition : o.definition? a = some chain
  op         : ∃ op, chain.op? = some op ∧ op.isAccessChain
  base       : chain.word? 3 = some v
  target     : o.opOf? v = some .variable

theorem Chains.derives {chain : Instruction} (h : o.Chains chain a v) :
    o.Derives Op.pointerBase o.stream a v := by
  obtain ⟨op, hop, ha⟩ := h.op
  exact .operand h.definition (Binary.mem_of_definition? h.definition)
    ⟨⟨op, hop, by simp [Op.mem_pointerBase, ha]⟩, h.base⟩

inductive Origins (o : Outline) (p : Place) : List Place → Prop
  | base {i c} : o.definition? p.id = some i → i.Refers Op.pointerBase 3 c →
      Origins o p [⟨c, p.member⟩]
  | member {chain c m} : o.Chains chain p.id c → o.selectedMember? chain c = .ok m →
      Origins o p [⟨c, m⟩]
  | argument : o.opOf? p.id = some .functionParameter →
    Origins o p ((o.argumentsOf p.id).reverse.map (⟨·, p.member⟩))
  | none : (∀ op ∈ o.opOf? p.id, op.pointerBase = [] ∧ op ≠ .functionParameter) → Origins o p []

theorem of_origins (h : o.origins p = .ok ps) : o.Origins p ps := by
  unfold origins at h
  split at h
  case h_2 hd =>
    cases h
    exact .none (by simp [Binary.opOf?, Option.eq_none_iff_forall_ne_some.mpr hd])
  case h_1 i hd =>
    split at h
    case h_2 hop =>
      cases h
      exact .none (by simp [Binary.opOf?, hd, Option.eq_none_iff_forall_ne_some.mpr hop])
    case h_1 op hop =>
      split at h
      case h_1 | h_2 | h_3 =>
        obtain ⟨c, hc, h⟩ := ok_of_bind h
        cases h
        exact .base hd ⟨⟨_, hop, mem_singleton_self 3⟩, Instruction.word?_of_word hc⟩
      case h_4 =>
        cases h
        exact .argument (by simp [Binary.opOf?, hd, hop])
      case h_5 =>
        split at h
        case isTrue ha =>
          obtain ⟨c, hc, h⟩ := ok_of_bind h
          split at h
          case isTrue hv =>
            obtain ⟨m, hm, h⟩ := ok_of_bind h
            cases h
            exact .member ⟨hd, ⟨op, hop, ha⟩, Instruction.word?_of_word hc, hv⟩ hm
          case isFalse hv =>
            cases h
            exact .base hd ⟨⟨op, hop, by simp [Op.mem_pointerBase, ha]⟩,
              Instruction.word?_of_word hc⟩
        case isFalse ha =>
          cases h
          exact .none (by simp_all [Binary.opOf?, Op.pointerBase])

theorem mem_accessesOf {i : Instruction} {as : List VariableAccess} (ha : o.accessesOf i = .ok as)
    {access : VariableAccess} : access ∈ as ↔ ∃ accessed, i.accessed = .ok accessed
      ∧ ∃ x ∈ accessed, ∃ places, o.variablesOf x.1 = .ok places
      ∧ ∃ q ∈ places, access = ⟨q.id, x.2, q.member, o.functionOf? i.index⟩ := by
  obtain ⟨accessed, hi, ha⟩ := ok_of_bind ha
  obtain ⟨found, hfound, ha⟩ := ok_of_bind ha
  cases ha
  simp only [mem_flatten, mem_of_mapM hfound, hi, Except.ok.injEq, exists_eq_left']
  constructor
  case mp =>
    rintro ⟨_, ⟨x, hx, hf⟩, hmem⟩
    obtain ⟨places, hp, hf⟩ := ok_of_bind hf
    cases hf
    obtain ⟨q, hq, rfl⟩ := mem_map.mp hmem
    exact ⟨x, hx, places, hp, q, hq, rfl⟩
  case mpr =>
    rintro ⟨x, hx, places, hp, q, hq, rfl⟩
    refine ⟨places.map fun q => ⟨q.id, x.2, q.member, o.functionOf? i.index⟩, ⟨x, hx, ?_⟩,
      mem_map.mpr ⟨q, hq, rfl⟩⟩
    rw [hp]
    rfl

theorem mem_variableAccesses {as : List VariableAccess} (ha : o.variableAccesses = .ok as)
    {access : VariableAccess} :
    access ∈ as ↔ ∃ i ∈ o.instructions.toList, ∃ is, o.accessesOf i = .ok is ∧ access ∈ is := by
  obtain ⟨found, hfound, ha⟩ := ok_of_bind ha
  cases ha
  simp only [mem_flatten, mem_of_mapM hfound]
  grind

namespace IsRead

variable (h : o.IsRead)

include h

theorem exists_mem_origins (hp : o.origins p = .ok ps) :
    (∃ q ∈ ps, q.id = c) ↔ o.Derives Op.pointerBase o.stream p.id c := by
  constructor
  case mp =>
    rintro ⟨q, hq, rfl⟩
    cases of_origins hp
    case base hd hr =>
      obtain rfl := mem_singleton.mp hq
      exact .operand hd (Binary.mem_of_definition? hd) hr
    case member hc _ =>
      obtain rfl := mem_singleton.mp hq
      exact hc.derives
    case argument =>
      obtain ⟨x, hx, rfl⟩ := mem_map.mp hq
      obtain ⟨call, hcall, hpass⟩ := h.mem_argumentsOf.mp (mem_reverse.mp hx)
      exact .argument hcall hpass
    case none => simp at hq
  case mpr =>
    intro hder
    cases hder
    case operand i k hd _ hr =>
      obtain ⟨op, hop, hk⟩ := hr.position
      obtain ⟨rfl, _⟩ := Op.mem_pointerBase.mp hk
      have hop' : o.opOf? p.id = some op := by simp [Binary.opOf?, hd, hop]
      cases of_origins hp
      case base hd' hr' =>
        cases hd.symm.trans hd'
        exact ⟨_, mem_singleton_self _, Option.some.inj (hr'.operand.symm.trans hr.operand)⟩
      case member hc _ =>
        cases hd.symm.trans hc.definition
        exact ⟨_, mem_singleton_self _, Option.some.inj (hc.base.symm.trans hr.operand)⟩
      -- A parameter has no operand that a pointer comes from.
      case argument ho =>
        cases hop'.symm.trans ho
        cases hk
      case none hn => simp [(hn op hop').left] at hk
    case argument call hcall hpass =>
      have ho := h.opOf?_of_passes hpass
      have hop {i : Instruction} {op : Op} (hd : o.definition? p.id = some i)
          (hop : i.op? = some op) : op = .functionParameter := by
        simpa [Binary.opOf?, hd, hop] using ho
      cases of_origins hp
      case base hd' hr =>
        obtain ⟨op, hop', hk⟩ := hr.position
        cases hop hd' hop'
        cases hk
      case member hc _ =>
        obtain ⟨op, hop', ha⟩ := hc.op
        cases hop hc.definition hop'
        cases ha
      case argument =>
        refine ⟨⟨c, p.member⟩, mem_map.mpr ⟨c, mem_reverse.mpr ?_, rfl⟩, rfl⟩
        exact h.mem_argumentsOf.mpr ⟨call, hcall, hpass⟩
      case none hn => exact absurd rfl (hn _ ho).right

theorem exists_mem_next :
    (∃ q ∈ (o.origins p).toOption.getD [], q.id = c)
      ↔ o.Derives Op.pointerBase o.stream p.id c := by
  obtain ⟨ps, hp⟩ := origins_succeeds h.indexed.framed p
  rw [hp]
  exact h.exists_mem_origins hp

theorem mem_keys_of_next (p : Place) (hn : (o.origins p).toOption.getD [] ≠ []) :
    p.id ∈ o.definitions.keys.toFinset := by
  obtain ⟨q, hq⟩ := exists_mem_of_ne_nil _ hn
  obtain ⟨i, hd⟩ := h.definition?_of_derives (h.exists_mem_next.mp ⟨q, hq, rfl⟩)
  exact h.mem_keys_of_definition? hd

theorem reaches_of_mem_places {places : List Place}
    (hp : checkedSearch Place.id o.origins o.definitions.size ⟨a, none⟩ = .ok places)
    (hq : q ∈ places) :
    ReflTransGen (fun p q => q ∈ (o.origins p).toOption.getD []) ⟨a, none⟩ q :=
  reaches_of_mem_search h.mem_keys_of_next o.card_keys_le _ (of_checkedSearch hp ▸ hq)

theorem derives_of_reaches (hr : ReflTransGen (fun p q => q ∈ (o.origins p).toOption.getD []) p q) :
    ReflTransGen (o.Derives Op.pointerBase o.stream) p.id q.id :=
  hr.lift Place.id fun _ q hq => h.exists_mem_next.mp ⟨q, hq, rfl⟩

theorem exists_mem_places {places : List Place}
    (hp : checkedSearch Place.id o.origins o.definitions.size ⟨a, none⟩ = .ok places) :
    (∃ q ∈ places, q.id = c) ↔ ReflTransGen (o.Derives Op.pointerBase o.stream) a c := by
  constructor
  case mp =>
    rintro ⟨q, hq, rfl⟩
    exact h.derives_of_reaches (h.reaches_of_mem_places hp hq)
  case mpr =>
    intro hder
    -- Some place with the id `c` can be reached, whatever member it has.
    have hreach : ∃ q : Place, ReflTransGen (fun p q => q ∈ (o.origins p).toOption.getD [])
        ⟨a, none⟩ q ∧ q.id = c := by
      induction hder
      case refl => exact ⟨_, .refl, rfl⟩
      case tail x y _ hxy hi =>
        obtain ⟨p, hp, rfl⟩ := hi
        obtain ⟨q, hq, rfl⟩ := h.exists_mem_next.mpr hxy
        exact ⟨q, hp.tail hq, rfl⟩
    obtain ⟨q, hq, rfl⟩ := hreach
    rw [of_checkedSearch hp]
    refine exists_mem_search h.mem_keys_of_next o.card_keys_le _ (fun p p' hpp q hq => ?_) hq
    exact h.exists_mem_next.mpr (hpp ▸ h.exists_mem_next.mp ⟨q, hq, rfl⟩)

theorem exists_mem_variablesOf {places : List Place} (hp : o.variablesOf a = .ok places) :
    (∃ q ∈ places, q.id = v) ↔ o.opOf? v = some .variable
      ∧ ReflTransGen (o.Derives Op.pointerBase o.stream) a v := by
  obtain ⟨met, hmet, hp⟩ := ok_of_bind hp
  cases hp
  rw [← h.exists_mem_places hmet]
  simp only [mem_filter, decide_eq_true_eq]
  constructor
  case mp =>
    rintro ⟨q, ⟨hq, hv⟩, rfl⟩
    exact ⟨hv, q, hq, rfl⟩
  case mpr =>
    rintro ⟨hv, q, hq, rfl⟩
    exact ⟨q, ⟨hq, hv⟩, rfl⟩

theorem exists_mem_accessesOf {i : Instruction} {as : List VariableAccess}
    (ha : o.accessesOf i = .ok as) (flag : AccessFlag) :
    (∃ access ∈ as, access.target = v ∧ access.flags.has flag)
      ↔ ∃ p, i.pointer? flag = some p ∧ o.opOf? v = some .variable
        ∧ ReflTransGen (o.Derives Op.pointerBase o.stream) p v := by
  have hmem := @mem_accessesOf o i as ha
  obtain ⟨accessed, hi, _⟩ := ok_of_bind ha
  simp only [← Instruction.mem_accessed hi]
  constructor
  case mp =>
    rintro ⟨access, haccess, rfl, hflag⟩
    obtain ⟨_, hi', x, hx, places, hp, q, hq, rfl⟩ := hmem.mp haccess
    cases hi.symm.trans hi'
    exact ⟨x.1, ⟨x.2, hx, hflag⟩, (h.exists_mem_variablesOf hp).mp ⟨q, hq, rfl⟩⟩
  case mpr =>
    rintro ⟨p, ⟨flags, hx, hflag⟩, hv⟩
    obtain ⟨places, hp⟩ := variablesOf_succeeds h.indexed.framed p
    obtain ⟨q, hq, rfl⟩ := (h.exists_mem_variablesOf hp).mpr hv
    exact ⟨_, hmem.mpr ⟨accessed, hi, _, hx, places, hp, q, hq, rfl⟩, rfl, hflag⟩

end IsRead
end Outline

namespace Module

variable {words : List Word} {m : Module} {v : Id}

theorem IsAnalysed.accessesOf_succeeds (h : m.IsAnalysed) {i : Instruction}
    (hi : i ∈ m.instructions.toList) :
    ∃ as, m.accessesOf i = .ok as := by
  obtain ⟨found, hfound, _⟩ := ok_of_bind h.accesses
  exact Succeeds.mapM_iff.mp ⟨found, hfound⟩ i hi

theorem has_flag_iff_derives (h : ofWords words = .ok m) (hv : m.opOf? v = some .variable)
    (flag : AccessFlag) :
    (m.accesses.flags v).has flag ↔ ∃ i ∈ m.instructions.toList, ∃ p, i.pointer? flag = some p
      ∧ ReflTransGen (m.Derives Op.pointerBase m.stream) p v := by
  have hm := isAnalysed_of_ofWords h
  have hr := hm.toIsRead
  rw [VariableAccesses.flags, VariableAccesses.has_unite]
  simp only [mem_filter, beq_iff_eq, Outline.mem_variableAccesses hm.accesses]
  constructor
  case mp =>
    rintro ⟨access, ⟨⟨i, hi, as, ha, hmem⟩, htarget⟩, hflag⟩
    obtain ⟨p, hp, _, hder⟩ := (hr.exists_mem_accessesOf ha flag).mp ⟨access, hmem, htarget, hflag⟩
    exact ⟨i, hi, p, hp, hder⟩
  case mpr =>
    rintro ⟨i, hi, p, hp, hder⟩
    obtain ⟨as, ha⟩ := hm.accessesOf_succeeds hi
    obtain ⟨access, hmem, htarget, hflag⟩ :=
      (hr.exists_mem_accessesOf ha flag).mpr ⟨p, hp, hv, hder⟩
    exact ⟨access, ⟨⟨i, hi, as, ha, hmem⟩, htarget⟩, hflag⟩

-- A function stores through its parameter. It calls itself with the parameter and with nothing, and
-- another function passes a copy of the pointer to a variable.
def storesThroughParameter : List Word :=
  [Header.magicNumber, 0x00010500, 0, 13, 0, 0x20013, 1, 0x40020, 2, 3, 1, 0x4003B, 2, 3, 3,
   0x50036, 1, 4, 0, 1, 0x30037, 2, 5, 0x200F8, 6, 0x3003E, 5, 3, 0x50039, 1, 7, 4, 5,
   0x40039, 1, 8, 4,
   0x100FD, 0x10038,
   0x50036, 1, 9, 0, 1, 0x200F8, 10, 0x40053, 2, 11, 3, 0x50039, 1, 12, 4, 11, 0x100FD, 0x10038]

theorem has_flag_iff_derives_storesThroughParameter : ∃ m, ofWords storesThroughParameter = .ok m
    ∧ m.opOf? 3 = some .variable ∧ (m.accesses.flags 3).has .write
    ∧ ∃ i ∈ m.instructions.toList, ∃ p, i.pointer? .write = some p
      ∧ ReflTransGen (m.Derives Op.pointerBase m.stream) p 3 := by
  have hm : ∃ m, ofWords storesThroughParameter = .ok m
      ∧ m.opOf? 3 = some .variable ∧ (m.accesses.flags 3).has .write :=
    exists_ok_of_decide (by decide +kernel)
  obtain ⟨m, hm, hv, hw⟩ := hm
  exact ⟨m, hm, hv, hw, (has_flag_iff_derives hm hv .write).mp hw⟩

end Module
end Shader
