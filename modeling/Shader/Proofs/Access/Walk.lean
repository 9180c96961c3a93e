import Shader.Proofs.Access.Argument
import Shader.Proofs.Analysis.Reachable

namespace Shader

open List Relation

inductive Path {α : Type} (step : α → Nat → α → Prop) : α → List Nat → α → Prop
  | nil {a} : Path step a [] a
  | cons {a b c k ks} : step a k b → Path step b ks c → Path step a (k :: ks) c

namespace Path

variable {α β : Type} {step : α → Nat → α → Prop} {step' : β → Nat → β → Prop} {a b c : α} {k : Nat}
  {ks : List Nat}

theorem exists_of_reflTransGen (h : ReflTransGen (fun a b => ∃ k, step a k b) a b) :
    ∃ ks, Path step a ks b := by
  induction h using ReflTransGen.head_induction_on
  case refl => exact ⟨[], .nil⟩
  case head hab _ hi =>
    obtain ⟨k, hk⟩ := hab
    obtain ⟨ks, hks⟩ := hi
    exact ⟨k :: ks, .cons hk hks⟩

theorem map (f : α → β) (hf : ∀ a k b, step a k b → step' (f a) k (f b)) (h : Path step a ks b) :
    Path step' (f a) ks (f b) := by
  induction h
  case nil => exact .nil
  case cons hk _ hi => exact .cons (hf _ _ _ hk) hi

theorem unique (hstep : ∀ a k b c, step a k b → step a k c → b = c) (hb : Path step a ks b)
    (hc : Path step a ks c) :
    b = c := by
  induction hb
  case nil =>
    cases hc
    rfl
  case cons hk _ hi =>
    cases hc
    case cons hk' hc =>
      cases hstep _ _ _ _ hk hk'
      exact hi hc

theorem take (h : Path step a ks b) (n : Nat) : ∃ c, Path step a (ks.take n) c := by
  induction h generalizing n
  case nil a =>
    rw [take_nil]
    exact ⟨a, .nil⟩
  case cons hk _ hi =>
    cases n
    case zero => exact ⟨_, .nil⟩
    case succ n =>
      obtain ⟨c, hc⟩ := hi n
      exact ⟨c, .cons hk hc⟩

end Path

theorem reflTransGen_or_iff {α : Type} {S T : α → α → Prop} {a b : α} :
    ReflTransGen (fun a b => S a b ∨ T a b) a b
      ↔ ∃ c, ReflTransGen S a c
        ∧ (b = c ∨ ∃ d, T c d ∧ ReflTransGen (fun a b => S a b ∨ T a b) d b) := by
  constructor
  case mp =>
    intro h
    induction h using ReflTransGen.head_induction_on
    case refl => exact ⟨b, .refl, .inl rfl⟩
    case head a x hax hxb hi =>
      obtain hs | ht := hax
      · obtain ⟨c, hc, hrest⟩ := hi
        exact ⟨c, hc.head hs, hrest⟩
      · exact ⟨a, .refl, .inr ⟨x, ht, hxb⟩⟩
  case mpr =>
    rintro ⟨c, hc, hrest⟩
    have hac : ReflTransGen (fun a b => S a b ∨ T a b) a c := hc.lift id fun _ _ => .inl
    obtain rfl | ⟨d, ht, hdb⟩ := hrest
    · exact hac
    · exact hac.trans (hdb.head (.inr ht))

namespace Op

-- What the result stands for is the operand itself, or what is loaded from it.
def handsOn : Op → Bool
  | .image | .load | .copyObject | .copyLogical => true
  | _ => false

def walkOperands : Op → List Nat
  | .sampledImage => [3, 4]
  | op => if op.handsOn || op.isAccessChain then [3] else []

variable {op : Op}

theorem handsOn_iff :
    op.handsOn ↔ op = .image ∨ op = .load ∨ op = .copyObject ∨ op = .copyLogical := by
  unfold handsOn
  split <;> simp_all

theorem walkOperands_of_isAccessChain (h : op.isAccessChain) : op.walkOperands = [3] := by
  unfold walkOperands
  split
  case h_1 => cases h
  case h_2 => simp [h]

theorem walkOperands_eq_nil_iff :
    op.walkOperands = [] ↔ op ≠ .sampledImage ∧ ¬op.handsOn ∧ ¬op.isAccessChain := by
  unfold walkOperands
  split
  case h_1 => simp
  case h_2 hs =>
    have hs : op ≠ .sampledImage := hs
    simp [hs]

end Op

namespace Outline

def element (o : Outline) (chain : Instruction) : ArrayIndex :=
  match chain.word? 4 with
  | none => .direct
  | some index =>
    match o.definition? index with
    | none => .unknown
    | some i => if i.is .constant then (i.word? 3).elim .unknown .constant else .unknown

def Operand (o : Outline) (a : Id) (k : Nat) (b : Id) : Prop :=
  ∃ i, o.definition? a = some i ∧ i.Refers Op.walkOperands k b

-- How a walk goes on within a function. At the position 4 stands the sampler of a sampled image,
-- and only access chains replace the index.
def Steps (o : Outline) (p : WalkPoint) (k : Nat) (q : WalkPoint) : Prop :=
  ∃ i, o.definition? p.id = some i ∧ i.Refers Op.walkOperands k q.id
    ∧ q.branch = (if k = 4 then .sampler else p.branch)
    ∧ q.index = if i.op?.any Op.isAccessChain then some (o.element i) else p.index

def Passed (o : Outline) (a b : Id) : Prop :=
  ∃ call ∈ o.stream, o.Passes call a b

def Leads (o : Outline) (a b : Id) : Prop :=
  (∃ k, o.Operand a k b) ∨ o.Passed a b

def Walks (o : Outline) (p q : WalkPoint) : Prop :=
  (∃ k, o.Steps p k q) ∨ o.Passed p.id q.id ∧ q.branch = p.branch ∧ q.index = p.index

def idsBeyond (o : Outline) (a : Id) : Set Id :=
  {b | b = a ∨ ∃ c, o.Passed a c ∧ ReflTransGen o.Leads c b}

def pointsBeyond (o : Outline) (p : WalkPoint) : Set WalkPoint :=
  {q | q = p ∨ ∃ c, o.Passed p.id c ∧ ReflTransGen o.Walks ⟨c, p.branch, p.index⟩ q}

-- Within a function no two paths lead from one id to another; so none leads back.
def Unshared (o : Outline) : Prop :=
  ∀ a b ks ks', Path o.Operand a ks b → Path o.Operand a ks' b → ks = ks'

variable {o : Outline} {p q q' : WalkPoint} {k : Nat} {ps : List WalkPoint} {a b : Id}

theorem Steps.operand (h : o.Steps p k q) : o.Operand p.id k q.id := by
  obtain ⟨i, hd, hr, _⟩ := h
  exact ⟨i, hd, hr⟩

theorem Steps.unique (h : o.Steps p k q) (h' : o.Steps p k q') : q = q' := by
  obtain ⟨i, hd, hr, hbranch, hindex⟩ := h
  obtain ⟨i', hd', hr', hbranch', hindex'⟩ := h'
  cases hd.symm.trans hd'
  cases q
  cases q'
  simp only [WalkPoint.mk.injEq]
  exact ⟨Option.some.inj (hr.operand.symm.trans hr'.operand), hbranch.trans hbranch'.symm,
    hindex.trans hindex'.symm⟩

theorem Operand.steps (h : o.Operand p.id k b) : ∃ q, o.Steps p k q ∧ q.id = b := by
  obtain ⟨i, hd, hr⟩ := h
  exact ⟨⟨b, _, _⟩, ⟨i, hd, hr, rfl, rfl⟩, rfl⟩

theorem of_elementIndex {index : Id} {e : ArrayIndex} {chain : Instruction}
    (hi : chain.word? 4 = some index) (h : o.elementIndex index = .ok e) : o.element chain = e := by
  unfold elementIndex at h
  simp only [element, hi]
  split at h
  case h_2 hd =>
    cases h
    simp [Option.eq_none_iff_forall_ne_some.mpr hd]
  case h_1 i hd =>
    simp only [hd]
    split at h
    case isFalse hc =>
      cases h
      simp [hc]
    case isTrue hc =>
      obtain ⟨value, hv, h⟩ := ok_of_bind h
      cases h
      simp only [Instruction.constantValue?, Instruction.op?_of_is hc] at hv
      obtain ⟨w, hw, hv⟩ := ok_of_bind hv
      cases hv
      simp [hc, Instruction.word?_of_word hw]

theorem steps_iff {i : Instruction} {op : Op} (hd : o.definition? p.id = some i)
    (ho : i.op? = some op) :
    o.Steps p k q ↔ k ∈ op.walkOperands ∧ i.word? k = some q.id
      ∧ q.branch = (if k = 4 then .sampler else p.branch)
      ∧ q.index = if op.isAccessChain then some (o.element i) else p.index := by
  constructor
  case mp =>
    rintro ⟨i', hd', ⟨⟨op', ho', hk⟩, hw⟩, hbranch, hindex⟩
    cases hd.symm.trans hd'
    cases ho.symm.trans ho'
    exact ⟨hk, hw, hbranch, by simpa [ho] using hindex⟩
  case mpr =>
    rintro ⟨hk, hw, hbranch, hindex⟩
    exact ⟨i, hd, ⟨⟨op, ho, hk⟩, hw⟩, hbranch, by simpa [ho] using hindex⟩

theorem mem_walkOn (h : o.walkOn p = .ok ps) : q ∈ ps ↔ ∃ k, o.Steps p k q := by
  obtain ⟨id, branch, index⟩ := q
  unfold walkOn at h
  split at h
  case h_2 hd =>
    cases h
    simp [Steps, Option.eq_none_iff_forall_ne_some.mpr hd]
  case h_1 i hd =>
    split at h
    case h_2 ho =>
      cases h
      have hnone := Option.eq_none_iff_forall_ne_some.mpr ho
      simp only [not_mem_nil, false_iff]
      rintro ⟨k, i', hd', ⟨⟨op, ho', _⟩, _⟩, _⟩
      cases hd.symm.trans hd'
      cases hnone.symm.trans ho'
    case h_1 op ho =>
      simp only [steps_iff hd ho]
      split at h
      case h_1 =>
        obtain ⟨sampler, hs, h⟩ := ok_of_bind h
        obtain ⟨image, hi, h⟩ := ok_of_bind h
        cases h
        simp [Op.walkOperands, Op.isAccessChain, Instruction.word?_of_word hs,
          Instruction.word?_of_word hi, eq_comm (a := id), or_comm]
      case h_2 | h_3 | h_4 | h_5 =>
        obtain ⟨x, hx, h⟩ := ok_of_bind h
        cases h
        simp [Op.walkOperands, Op.handsOn, Op.isAccessChain, Instruction.word?_of_word hx,
          eq_comm (a := id)]
      case h_6 =>
        split at h
        case isFalse ha =>
          cases h
          have hnone : op.walkOperands = [] := by
            simp_all [Op.walkOperands_eq_nil_iff, Op.handsOn_iff]
          simp [hnone]
        case isTrue ha =>
          -- With or without an index the chain leads to its base, under the index it chooses.
          have hps : ∃ base, i.word 3 = .ok base ∧ ps = [⟨base, p.branch, some (o.element i)⟩] := by
            split at h
            case h_1 hw =>
              obtain ⟨e, he, h⟩ := ok_of_bind h
              obtain ⟨base, hbase, h⟩ := ok_of_bind h
              cases h
              exact ⟨base, hbase, by rw [of_elementIndex hw he]⟩
            case h_2 hw =>
              obtain ⟨_, he, h⟩ := ok_of_bind h
              cases he
              obtain ⟨base, hbase, h⟩ := ok_of_bind h
              cases h
              exact ⟨base, hbase, by simp [element, hw]⟩
          obtain ⟨base, hbase, rfl⟩ := hps
          simp [Op.walkOperands_of_isAccessChain ha, ha, Instruction.word?_of_word hbase,
            eq_comm (a := id)]

theorem IsRead.mem_next (h : o.IsRead) :
    q ∈ (o.walkOn p).toOption.getD [] ↔ ∃ k, o.Steps p k q := by
  obtain ⟨ps, hp⟩ := walkOn_succeeds h.indexed.framed p
  rw [← mem_walkOn hp, hp]
  rfl

theorem IsRead.mem_keys_of_walkOn (h : o.IsRead) (p : WalkPoint)
    (hn : (o.walkOn p).toOption.getD [] ≠ []) :
    p.id ∈ o.definitions.keys.toFinset := by
  obtain ⟨q, hq⟩ := exists_mem_of_ne_nil _ hn
  obtain ⟨k, i, hd, _⟩ := h.mem_next.mp hq
  exact h.mem_keys_of_definition? hd

theorem Unshared.eq_of_id_eq (h : o.Unshared) {r : WalkPoint}
    (hq : ReflTransGen (fun p q => ∃ k, o.Steps p k q) p q)
    (hr : ReflTransGen (fun p q => ∃ k, o.Steps p k q) p r) (hid : q.id = r.id) : q = r := by
  obtain ⟨ks, hks⟩ := Path.exists_of_reflTransGen hq
  obtain ⟨ks', hks'⟩ := Path.exists_of_reflTransGen hr
  have hoperand : ∀ p k q, o.Steps p k q → o.Operand p.id k q.id := fun _ _ _ => Steps.operand
  have hpath : Path o.Operand p.id ks' q.id := hid ▸ hks'.map WalkPoint.id hoperand
  cases h _ _ _ _ (hks.map WalkPoint.id hoperand) hpath
  exact hks.unique (fun _ _ _ _ h h' => h.unique h') hks'

structure Meets (o : Outline) (p : WalkPoint) (points : List WalkPoint) : Prop where
  steps    : ∀ q ∈ points, ReflTransGen (fun p q => ∃ k, o.Steps p k q) p q
  ids      : ∀ b, ReflTransGen (fun a b => ∃ k, o.Operand a k b) p.id b → ∃ q ∈ points, q.id = b
  complete : o.Unshared → ∀ q, ReflTransGen (fun p q => ∃ k, o.Steps p k q) p q → q ∈ points

theorem IsRead.meets_of_checkedSearch (h : o.IsRead)
    (hp : checkedSearch WalkPoint.id o.walkOn o.definitions.size p = .ok ps) : o.Meets p ps := by
  have hkeys := h.mem_keys_of_walkOn
  have hrel : (fun p q => q ∈ (o.walkOn p).toOption.getD []) = fun p q => ∃ k, o.Steps p k q := by
    funext p q
    exact propext h.mem_next
  have hlead {a b : Id} {p : WalkPoint} (ha : p.id = a) (hk : ∃ k, o.Operand a k b) :
      ∃ q ∈ (o.walkOn p).toOption.getD [], q.id = b := by
    obtain ⟨k, hk⟩ := hk
    obtain ⟨q, hq, hid⟩ := Operand.steps (ha ▸ hk)
    exact ⟨q, h.mem_next.mpr ⟨k, hq⟩, hid⟩
  rw [of_checkedSearch hp]
  constructor
  case steps => exact fun q hq => hrel ▸ reaches_of_mem_search hkeys o.card_keys_le p hq
  case ids =>
    intro b hb
    have hreach : ∃ q : WalkPoint, ReflTransGen (fun p q => q ∈ (o.walkOn p).toOption.getD []) p q
        ∧ q.id = b := by
      induction hb
      case refl => exact ⟨p, .refl, rfl⟩
      case tail hk hi =>
        obtain ⟨q, hq, hid⟩ := hi
        obtain ⟨r, hr, hid⟩ := hlead hid hk
        exact ⟨r, hq.tail hr, hid⟩
    obtain ⟨q, hq, rfl⟩ := hreach
    refine exists_mem_search hkeys o.card_keys_le p (fun q q' hid r hr => ?_) hq
    obtain ⟨k, hk⟩ := h.mem_next.mp hr
    exact hlead hid.symm ⟨k, hk.operand⟩
  case complete =>
    intro hu q hq
    refine (mem_search_iff hkeys o.card_keys_le p fun q r hq hr => ?_).mpr (hrel ▸ hq)
    exact hu.eq_of_id_eq (hrel ▸ hq) (hrel ▸ hr)

theorem walks_iff : ReflTransGen o.Walks p q
    ↔ ∃ r, ReflTransGen (fun p q => ∃ k, o.Steps p k q) p r ∧ q ∈ o.pointsBeyond r := by
  refine reflTransGen_or_iff.trans (exists_congr fun r => and_congr_right
    fun _ => or_congr_right ?_)
  constructor
  case mp =>
    rintro ⟨⟨c, _, _⟩, ⟨hp, rfl, rfl⟩, hq⟩
    exact ⟨c, hp, hq⟩
  case mpr =>
    rintro ⟨c, hp, hq⟩
    exact ⟨⟨c, r.branch, r.index⟩, ⟨hp, rfl, rfl⟩, hq⟩

theorem not_operand_of_parameter (ho : o.opOf? a = some .functionParameter) : ¬o.Operand a k b := by
  rintro ⟨i, hd, ⟨⟨op, hop, hk⟩, _⟩⟩
  have hop' : op = .functionParameter := by simpa [Binary.opOf?, hd, hop] using ho
  cases hop'
  cases hk

theorem parameter_walks_iff (ho : o.opOf? p.id = some .functionParameter) :
    ReflTransGen o.Walks p q ↔ q ∈ o.pointsBeyond p := by
  have hnone (q : WalkPoint) : ¬∃ k, o.Steps p k q :=
    fun ⟨_, hk⟩ => not_operand_of_parameter ho hk.operand
  simp only [walks_iff, reflTransGen_iff_eq (r := fun p q => ∃ k, o.Steps p k q) hnone,
    exists_eq_left]

theorem leads_iff : ReflTransGen o.Leads a b
    ↔ ∃ c, ReflTransGen (fun a b => ∃ k, o.Operand a k b) a c ∧ b ∈ o.idsBeyond c :=
  reflTransGen_or_iff

theorem parameter_leads_iff (ho : o.opOf? a = some .functionParameter) :
    ReflTransGen o.Leads a b ↔ b ∈ o.idsBeyond a := by
  have hnone (b : Id) : ¬∃ k, o.Operand a k b := fun ⟨_, hk⟩ => not_operand_of_parameter ho hk
  simp only [leads_iff, reflTransGen_iff_eq (r := fun a b => ∃ k, o.Operand a k b) hnone,
    exists_eq_left]

theorem Walks.leads (h : o.Walks p q) : o.Leads p.id q.id := by
  obtain ⟨k, hk⟩ | ⟨hp, _⟩ := h
  · exact .inl ⟨k, hk.operand⟩
  · exact .inr hp

theorem Leads.walks (h : o.Leads p.id b) : ∃ q, o.Walks p q ∧ q.id = b := by
  obtain ⟨k, hk⟩ | hp := h
  · obtain ⟨q, hq, hid⟩ := hk.steps
    exact ⟨q, .inl ⟨k, hq⟩, hid⟩
  · exact ⟨⟨b, p.branch, p.index⟩, .inr ⟨hp, rfl, rfl⟩, rfl⟩

theorem exists_transGen_walks_iff : (∃ q, TransGen o.Walks p q ∧ q.id = b)
    ↔ TransGen o.Leads p.id b := by
  constructor
  case mp =>
    rintro ⟨q, hq, rfl⟩
    exact hq.lift WalkPoint.id fun _ _ => Walks.leads
  case mpr =>
    intro hb
    induction hb
    case single hd =>
      obtain ⟨q, hq, hid⟩ := hd.walks
      exact ⟨q, .single hq, hid⟩
    case tail hd hi =>
      obtain ⟨q, hq, rfl⟩ := hi
      obtain ⟨r, hr, hid⟩ := hd.walks
      exact ⟨r, hq.tail hr, hid⟩

theorem exists_walks_iff : (∃ q, ReflTransGen o.Walks p q ∧ q.id = b)
    ↔ ReflTransGen o.Leads p.id b := by
  simp only [reflTransGen_iff_eq_or_transGen, or_and_right, exists_or, exists_eq_left,
    exists_transGen_walks_iff]
  rw [eq_comm]

def parameterIds (o : Outline) : Finset Id :=
  ((o.instructions.toList.filter (·.is .functionParameter)).filterMap
    Instruction.resultId?).toFinset

theorem card_parameterIds_le : o.parameterIds.card ≤ o.parameterCount := by
  rw [parameterCount, countP_eq_length_filter]
  exact (toFinset_card_le _).trans (length_filterMap_le _ _)

theorem IsRead.mem_parameterIds (h : o.IsRead) (ho : o.opOf? a = some .functionParameter) :
    a ∈ o.parameterIds := by
  obtain ⟨i, hd, ho⟩ := Option.bind_eq_some_iff.mp ho
  obtain ⟨hi, hid⟩ := h.indexed.definition?_eq_some_iff.mp hd
  exact mem_toFinset.mpr (mem_filterMap.mpr ⟨i, mem_filter.mpr ⟨hi, by simp [Instruction.is, ho]⟩,
    hid⟩)

def operands (o : Outline) (a : Id) : List (Nat × Id) :=
  (o.definition? a).elim [] fun i => (i.op?.elim [] Op.walkOperands).filterMap
    fun k => (i.word? k).map (k, ·)

def paths (o : Outline) : (n : Nat) → Id → List (List Nat × Id)
  | 0, a => [([], a)]
  | n + 1, a => ([], a) :: (o.operands a).flatMap fun x => (o.paths n x.2).map fun y =>
    (x.1 :: y.1, y.2)

theorem Operand.mem_operands (h : o.Operand a k b) : (k, b) ∈ o.operands a := by
  obtain ⟨i, hd, ⟨⟨op, ho, hk⟩, hw⟩⟩ := h
  rw [operands, hd, Option.elim_some, ho, Option.elim_some]
  exact mem_filterMap.mpr ⟨k, hk, by simp [hw]⟩

theorem mem_paths {n : Nat} {ks : List Nat} (h : Path o.Operand a ks b) (hn : ks.length ≤ n) :
    (ks, b) ∈ o.paths n a := by
  induction h generalizing n
  case nil => cases n <;> simp [paths]
  case cons hk _ hi =>
    cases n
    case zero => simp at hn
    case succ n =>
      have hrest := hi (Nat.le_of_succ_le_succ hn)
      exact mem_cons_of_mem _ (mem_flatMap.mpr ⟨_, hk.mem_operands, mem_map.mpr ⟨_, hrest, rfl⟩⟩)

-- Paths from the id have fewer than `n` steps, and they all end at different ids.
def endsApart (o : Outline) (n : Nat) (a : Id) : Bool :=
  (o.paths n a).all (·.1.length < n) && decide ((o.paths n a).map Prod.snd).Nodup

-- Where paths stay short it is enough to look at short ones.
theorem unshared_of_endsApart (hr : o.IsRead) (n : Nat) (h : o.ids.all (o.endsApart n)) :
    o.Unshared := by
  intro a b ks ks' hks hks'
  cases hd : o.definition? a
  case none =>
    have hnil {ks : List Nat} (hks : Path o.Operand a ks b) : ks = [] := by
      cases hks
      case nil => rfl
      case cons hk _ =>
        obtain ⟨i, hi, _⟩ := hk
        cases hd.symm.trans hi
    rw [hnil hks, hnil hks']
  case some i =>
    obtain ⟨hi, hid⟩ := hr.indexed.definition?_eq_some_iff.mp hd
    have hapart := all_eq_true.mp h a (mem_filterMap.mpr ⟨i, hi, hid⟩)
    simp only [endsApart, Bool.and_eq_true, all_eq_true, decide_eq_true_eq] at hapart
    obtain ⟨hshort, hnodup⟩ := hapart
    have hlength {ks : List Nat} (hks : Path o.Operand a ks b) : ks.length ≤ n := by
      obtain ⟨c, hc⟩ := hks.take n
      have hlt := hshort _ (mem_paths hc (length_take_le n ks))
      rw [length_take] at hlt
      omega
    have heq := inj_on_of_nodup_map hnodup (mem_paths hks (hlength hks))
      (mem_paths hks' (hlength hks')) rfl
    exact congrArg Prod.fst heq

end Outline
end Shader
