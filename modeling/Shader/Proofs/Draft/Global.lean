import Shader.Proofs.Decoration.Reuse

namespace Shader

open List

theorem Op.number_injective {op op' : Op} (h : op.number = op'.number) : op = op' :=
  Option.some.inj ((ofNumber?_number op).symm.trans (h ▸ ofNumber?_number op'))

@[ext]
structure GlobalRequest where
  op : Op
  type : Option Id
  operands : List Word
  deriving DecidableEq

-- Every id is defined once, and ids that are defined or that annotations target are below the
-- bound.
structure Draft.Settled (d : Draft) : Prop extends d.Sound where
  targeted : ∀ id, d.isDecorated id → id < d.bound

namespace GlobalRequest

def declaration (r : GlobalRequest) (id : Id) : Statement :=
  .new r.op r.type (some id) r.operands

def answer (r : GlobalRequest) : Editing Id :=
  Draft.findOrAddGlobal r.op r.type r.operands

def found? (r : GlobalRequest) (d : Draft) : Option Id :=
  d.findGlobal? r.op r.type r.operands

def declare (r : GlobalRequest) (d : Draft) : Draft :=
  ({ d with bound := d.bound + 1 }.push (r.declaration d.bound) .globals).noteType
    (r.declaration d.bound)

variable {r r' : GlobalRequest} {rs : List GlobalRequest} {d d' : Draft} {id : Id} {ids : List Id}

theorem declare_eq : r.declare d = { d with
    bound       := d.bound + 1
    globals     := d.globals ++ [r.declaration d.bound]
    resultTypes := (r.declare d).resultTypes } := by
  rw [declare, Draft.noteType_eq]
  rfl

theorem declaration_injective {id' : Id} (h : r.declaration id = r'.declaration id') : r = r' := by
  obtain ⟨ho, ht, _, hs, _⟩ := Statement.mk.inj h
  exact GlobalRequest.ext (Op.number_injective ho) ht hs

theorem found?_declare (hd : d.Settled) :
    r'.found? (r.declare d) = (r'.found? d).or (if r = r' then some d.bound else none) := by
  have hfresh : (r.declare d).isDecorated d.bound = false := by
    rw [← Bool.not_eq_true]
    intro h
    rw [declare_eq] at h
    exact UInt32.lt_irrefl _ (hd.targeted _ h)
  have hlast : [r.declaration d.bound].findSome? (fun s => s.resultId.filter fun id =>
      s.opcode == r'.op.number && s.resultType == r'.type && s.operands == r'.operands
        && !(r.declare d).isDecorated id)
      = if r = r' then some d.bound else none := by
    split
    case isTrue h => simp [← h, declaration, Statement.new, hfresh]
    case isFalse h =>
      simp only [findSome?_singleton, declaration, Statement.new, Option.filter_eq_none_iff]
      rintro _ _ hsame
      simp only [Bool.and_eq_true, beq_iff_eq] at hsame
      obtain ⟨⟨⟨ho, ht⟩, hs⟩, _⟩ := hsame
      exact h (GlobalRequest.ext (Op.number_injective ho) ht hs)
  rw [found?, Draft.findGlobal?, show (r.declare d).globals
    = d.globals ++ [r.declaration d.bound] by rw [declare_eq], findSome?_append, hlast]
  rw [declare_eq]
  rfl

theorem answer_leads : Leads r.answer d (fun id d' => d' = d ∧ r.found? d = some id
    ∨ r.found? d = none ∧ id = d.bound ∧ d' = r.declare d ∧ d'.bound.toNat = d.bound.toNat + 1)
      fun _ => True := by
  refine .bind <| .get ?_
  split
  case h_1 id hid => exact .pure (.inl ⟨rfl, hid⟩)
  case h_2 hnone =>
    refine .bind <| Draft.allocate_leads.mono (fun id d₁ h => ?_) fun _ _ => trivial
    obtain ⟨rfl, rfl, hb⟩ := h
    refine .bind <| .modify <| .pure <| .inr ⟨hnone, rfl, rfl, ?_⟩
    rw [Draft.noteType_eq]
    exact hb

theorem settled_declare (hd : d.Settled) (hb : (r.declare d).bound.toNat = d.bound.toNat + 1) :
    (r.declare d).Settled := by
  have hdefs : (r.declare d).definitions ~ d.definitions ++ [(d.bound, r.type)] := by
    rw [declare, Draft.definitions_noteType]
    exact Draft.push_definitions _ _
  have hlt {id : Id} (h : id < d.bound) : id < (r.declare d).bound := by
    rw [UInt32.lt_iff_toNat_lt] at h ⊢
    omega
  refine ⟨⟨?_, fun x hx => ?_⟩, fun id h => hlt (hd.targeted id ?_)⟩
  · rw [(hdefs.map _).nodup_iff, map_append, nodup_append]
    refine ⟨hd.nodup, nodup_singleton _, ?_⟩
    intro a ha b hb heq
    obtain ⟨x, hx, rfl⟩ := mem_map.mp ha
    have hlt := hd.below x hx
    rw [heq, mem_singleton.mp hb] at hlt
    exact UInt32.lt_irrefl _ hlt
  · obtain hx | hx := mem_append.mp (hdefs.mem_iff.mp hx)
    · exact hlt (hd.below x hx)
    · rw [mem_singleton.mp hx, UInt32.lt_iff_toNat_lt]
      show d.bound.toNat < _
      omega
  · rw [declare_eq] at h
    exact h

theorem eq_of_found? (hd : d.Sound) (h : r.found? d = some id) (h' : r'.found? d = some id) :
    r = r' := by
  obtain ⟨t, ht, heq⟩ := Draft.findGlobal?_spec h
  obtain ⟨t', ht', heq'⟩ := Draft.findGlobal?_spec h'
  have hnodup := hd.nodup
  rw [Draft.map_fst_definitions] at hnodup
  have hmem {t : Statement} (ht : t ∈ d.globals) : t ∈ d.statements := by
    simp [Draft.statements, Draft.declarations, ht]
  have hone := filter_resultId_eq hnodup (hmem ht) (congrArg Statement.resultId heq)
  have hsame : t' = t := by
    rw [← mem_singleton, ← hone, mem_filter]
    exact ⟨hmem ht', decide_eq_true (congrArg Statement.resultId heq')⟩
  rw [hsame] at heq'
  exact declaration_injective (heq.symm.trans heq')

end GlobalRequest

structure Draft.Adds (d : Draft) (rs : List GlobalRequest) (added : List (GlobalRequest × Id))
    (d' : Draft) : Prop where
  nodup  : (added.map Prod.fst).Nodup
  needed : ∀ r, r ∈ added.map Prod.fst ↔ r ∈ rs ∧ r.found? d = none
  bound  : d'.bound.toNat = d.bound.toNat + added.length
  rest   : d' = { d with
    bound       := d'.bound
    globals     := d.globals ++ added.map fun x => x.1.declaration x.2
    resultTypes := d'.resultTypes }

namespace Draft.Adds

variable {r : GlobalRequest} {rs : List GlobalRequest} {added : List (GlobalRequest × Id)}
  {d d' : Draft} {id : Id}

theorem nil (d : Draft) : d.Adds [] [] d :=
  ⟨nodup_nil, by simp, rfl, by simp⟩

theorem cons_of_found (h : r.found? d = some id) (ha : d.Adds rs added d') :
    d.Adds (r :: rs) added d' := by
  refine ⟨ha.nodup, fun r' => (ha.needed r').trans (and_congr_left fun hnone => ?_),
    ha.bound, ha.rest⟩
  have hne : r' ≠ r := by
    rintro rfl
    cases hnone.symm.trans h
  rw [mem_cons, or_iff_right hne]

theorem cons_of_declare (hd : d.Settled) (h : r.found? d = none)
    (hb : (r.declare d).bound.toNat = d.bound.toNat + 1) (ha : (r.declare d).Adds rs added d') :
    d.Adds (r :: rs) ((r, d.bound) :: added) d' := by
  have hfound (r' : GlobalRequest) : r'.found? (r.declare d) = none ↔ r'.found? d = none
      ∧ r' ≠ r := by
    rw [GlobalRequest.found?_declare hd, Option.or_eq_none_iff]
    simp [ne_comm]
  refine ⟨?_, fun r' => ?_, ?_, ?_⟩
  · rw [map_cons, nodup_cons, ha.needed, hfound]
    exact ⟨fun hr => hr.right.right rfl, ha.nodup⟩
  · rw [map_cons, mem_cons, mem_cons, ha.needed, hfound]
    by_cases hr : r' = r
    case pos => simp [hr, h]
    case neg => simp [hr]
  · rw [ha.bound, hb, length_cons]
    omega
  · have hrest := ha.rest
    rw [GlobalRequest.declare_eq] at hrest
    simpa using hrest

end Draft.Adds

namespace GlobalRequest

variable {rs : List GlobalRequest} {d : Draft}

structure Answered (d : Draft) (rs : List GlobalRequest) (ids : List Id) (d' : Draft) : Prop where
  settled : d'.Settled
  kept    : ∀ (r : GlobalRequest) id, r.found? d = some id → r.found? d' = some id
  found   : ids.map some = rs.map (·.found? d')
  adds    : ∃ added, d.Adds rs added d'

theorem mapM_answer_leads (hd : d.Settled) :
    Leads (rs.mapM answer) d (Answered d rs) fun _ => True := by
  induction rs generalizing d
  case nil =>
    rw [mapM_nil]
    exact .pure ⟨hd, fun _ _ h => h, rfl, [], .nil d⟩
  case cons r rs hi =>
    rw [mapM_cons]
    refine .bind <| answer_leads.weaken fun id d₁ h => ?_
    obtain ⟨rfl, hfound⟩ | ⟨hnone, rfl, rfl, hb⟩ := h
    · refine .bind <| (hi hd).weaken fun ids d' h => .pure ?_
      obtain ⟨added, hadds⟩ := h.adds
      have hkept := h.kept r id hfound
      exact ⟨h.settled, h.kept, by rw [map_cons, map_cons, h.found, hkept], added,
        hadds.cons_of_found hfound⟩
    · refine .bind <| (hi (settled_declare hd hb)).weaken fun ids d' h => .pure ?_
      obtain ⟨added, hadds⟩ := h.adds
      have hkept (r' : GlobalRequest) (x : Id) (hx : r'.found? d = some x) : r'.found? d'
          = some x :=
        h.kept r' x (by rw [found?_declare hd, hx, Option.some_or])
      have hfound : r.found? d' = some d.bound :=
        h.kept r _ (by rw [found?_declare hd, hnone]; simp)
      exact ⟨h.settled, hkept, by rw [map_cons, map_cons, h.found, hfound], _,
        hadds.cons_of_declare hd hnone hb⟩

end GlobalRequest

theorem answers_stable {d d' : Draft} {rs : List GlobalRequest} {ids : List Id} (hd : d.Sound)
    (ht : ∀ id, d.isDecorated id → id < d.bound) (h : rs.mapM GlobalRequest.answer d = .ok ids d') :
    ids.length = rs.length
    ∧ (∀ i < rs.length, ∀ j < rs.length, ids[i]? = ids[j]? ↔ rs[i]? = rs[j]?)
    ∧ ∃ added : List (GlobalRequest × Id), (added.map Prod.fst).Nodup
      ∧ (∀ r, r ∈ added.map Prod.fst ↔ r ∈ rs ∧ r.found? d = none)
      ∧ d'.bound.toNat = d.bound.toNat + added.length
      ∧ d' = { d with
        bound       := d'.bound
        globals     := d.globals ++ added.map fun x => x.1.declaration x.2
        resultTypes := d'.resultTypes } := by
  have hanswered := (GlobalRequest.mapM_answer_leads ⟨hd, ht⟩).ok h
  obtain ⟨added, hadds⟩ := hanswered.adds
  have hlength : ids.length = rs.length := by simpa using congrArg length hanswered.found
  refine ⟨hlength, fun i hi j hj => ?_, added, hadds.nodup, hadds.needed, hadds.bound, hadds.rest⟩
  have hfound {k : Nat} (hk : k < rs.length) : ∃ r id, rs[k]? = some r ∧ ids[k]? = some id
      ∧ r.found? d' = some id := by
    have hget := congrArg (·[k]?) hanswered.found
    simp only [getElem?_map, getElem?_eq_getElem hk, getElem?_eq_getElem (hlength ▸ hk),
      Option.map_some, Option.some.injEq] at hget
    exact ⟨_, _, getElem?_eq_getElem hk, getElem?_eq_getElem (hlength ▸ hk), hget.symm⟩
  obtain ⟨r, id, hr, hid, hanswer⟩ := hfound hi
  obtain ⟨r', id', hr', hid', hanswer'⟩ := hfound hj
  rw [hr, hr', hid, hid', Option.some.injEq, Option.some.injEq]
  constructor
  case mp =>
    rintro rfl
    exact GlobalRequest.eq_of_found? hanswered.settled.toSound hanswer hanswer'
  case mpr =>
    rintro rfl
    exact Option.some.inj (hanswer.symm.trans hanswer')

namespace GlobalRequest

-- The types 1 of 32-bit integers and 2 of 32-bit floats. The second is decorated.
def decoratedFloat : List Word :=
  [Header.magicNumber, 66816, 0, 3, 0, 196679, 2, 0, 262165, 1, 32, 0, 196630, 2, 32]

def interleaved : List GlobalRequest :=
  [⟨.typeInt, none, [32, 0]⟩, ⟨.typeFloat, none, [32]⟩, ⟨.constant, some 1, [7]⟩,
    ⟨.typeFloat, none, [32]⟩, ⟨.constant, some 1, [8]⟩, ⟨.constant, some 1, [7]⟩,
    ⟨.typeInt, none, [32, 0]⟩]

theorem answers_stable_interleaved :
    ∃ b d d', Binary.ofWords decoratedFloat = .ok b ∧ Draft.ofBinary b = .ok d
      ∧ d.Sound ∧ (∀ id, d.isDecorated id → id < d.bound) ∧ d.isDecorated 2
      ∧ interleaved.mapM answer d = .ok [1, 3, 4, 3, 5, 4, 1] d'
      ∧ ∃ added : List (GlobalRequest × Id), added.length = 3 ∧ (added.map Prod.fst).Nodup
        ∧ d'.globals = d.globals ++ added.map fun x => x.1.declaration x.2 := by
  obtain ⟨b, hb, hread⟩ : ∃ b, Binary.ofWords decoratedFloat = .ok b
      ∧ ((Draft.ofBinary b).map fun d => decide
      (d.isDecorated 2 ∧ d.bound = 3 ∧ (∀ a ∈ d.annotations, a.operands.head? = some 2)
        ∧ (match interleaved.mapM answer d with
          | .ok ids d' => decide (ids = [1, 3, 4, 3, 5, 4, 1] ∧ d'.bound = 6)
          | .error .. => false) = true)) = .ok true :=
    exists_ok_of_decide (by decide +kernel)
  obtain ⟨d, hd, hdecorated, hbound, hannotations, hrun⟩ := exists_ok_of_decide hread
  split at hrun
  case h_2 => cases hrun
  case h_1 ids d' h =>
    obtain ⟨rfl, hbound'⟩ := of_decide_eq_true hrun
    have hs := Draft.ofBinary_sound hd (Binary.read_valid hb)
    have ht (id : Id) (hid : d.isDecorated id) : id < d.bound := by
      obtain ⟨a, ha, hid⟩ := any_eq_true.mp hid
      rw [hannotations a ha] at hid
      simp only [Bool.and_eq_true, beq_iff_eq, Option.some.injEq] at hid
      rw [← hid.right, hbound]
      decide
    obtain ⟨_, _, added, hnodup, _, hlength, hrest⟩ := answers_stable hs ht h
    rw [hbound, hbound'] at hlength
    refine ⟨b, d, d', hb, hd, hs, ht, hdecorated, h, added, ?_, hnodup, by rw [hrest]⟩
    exact (Nat.add_left_cancel hlength).symm

end GlobalRequest
end Shader
