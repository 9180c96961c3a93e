import Shader.Proofs.Analysis.Analysed

namespace Shader

open List

namespace Instruction

def isBoundary (i : Instruction) : Bool :=
  i.is .function || i.is .functionEnd

structure Refers (i : Instruction) (back : Op → List Nat) (k : Nat) (c : Id) : Prop where
  position : ∃ op, i.op? = some op ∧ k ∈ back op
  operand  : i.word? k = some c

end Instruction

def headParameters (is : List Instruction) : List Id :=
  ((is.takeWhile (!·.isBoundary)).filter (·.is .functionParameter)).filterMap Instruction.resultId?

section

variable {i : Instruction} {is : List Instruction}

theorem headParameters_of_boundary (h : i.isBoundary) : headParameters (i :: is) = [] := by
  simp [headParameters, h]

theorem headParameters_of_parameter {id : Id} (h : i.op? = some .functionParameter)
    (hid : i.resultId? = some id) :
    headParameters (i :: is) = id :: headParameters is := by
  simp [headParameters, Instruction.isBoundary, Instruction.is, h, hid]

theorem headParameters_of_other (hb : ¬i.isBoundary) (hp : i.op? ≠ some .functionParameter) :
    headParameters (i :: is) = headParameters is := by
  simp [headParameters, hb, Instruction.is, hp]

end

theorem getD_appendAt {α : Type} (t : Std.TreeMap Id (List α)) (key k : Id) (a : α) :
    (appendAt t key a).getD k [] = if key = k then t.getD k [] ++ [a] else t.getD k [] := by
  simp only [appendAt, Std.TreeMap.getD_insert, Std.LawfulEqCmp.compare_eq_iff_eq]
  split
  case isTrue h => rw [h]
  case isFalse => rfl

namespace FunctionScan

variable {s s' : FunctionScan} {i : Instruction} {is : List Instruction} {function : Id}

def open? (s : FunctionScan) : Option Id :=
  s.current.map Prod.fst

inductive Declares (s : FunctionScan) (i : Instruction) (s' : FunctionScan) : Prop
  | start : i.op? = some .function → s'.open? = i.resultId? → s'.parameters = s.parameters →
      Declares s i s'
  | parameter {f id : Id} : i.op? = some .functionParameter → s.open? = some f →
    s'.open? = s.open? →
    i.resultId? = some id → s'.parameters = appendAt s.parameters f id → Declares s i s'
  | finish : i.op? = some .functionEnd → s'.open? = none → s'.parameters = s.parameters →
      Declares s i s'
  | stay : i.op? ≠ some .function → (i.op? = some .functionParameter ∨ i.op? = some .functionEnd →
    s.open? = none) →
    s'.open? = s.open? → s'.parameters = s.parameters → Declares s i s'

theorem declares_of_step (h : s.step i = .ok s') : s.Declares i s' := by
  have hresult {op : Op} (ho : i.op? = some op) (ht : op.outcome = .typed) : i.resultId?
      = i.word? 2 := by
    unfold Instruction.resultId? Instruction.outcome
    rw [ho, Option.elim_some, ht]
  unfold step at h
  split at h
  case h_1 ho =>
    obtain ⟨id, hid, h⟩ := ok_of_bind h
    cases h
    refine .start ho ?_ rfl
    rw [hresult ho rfl, Instruction.word?_of_word hid]
    rfl
  case h_2 ho hc =>
    obtain ⟨id, hid, h⟩ := ok_of_bind h
    cases h
    exact .parameter ho (by rw [open?, hc]; rfl) rfl
      ((hresult ho rfl).trans (Instruction.word?_of_word hid)) rfl
  case h_3 ho hc =>
    cases h
    exact .finish ho rfl rfl
  case h_4 hf hp he =>
    cases h
    refine .stay hf (fun ho => ?_) rfl rfl
    rw [open?, Option.map_eq_none_iff]
    cases hc : s.current
    case none => rfl
    case some x =>
      cases ho
      case inl ho => exact absurd hc (hp x.1 x.2 ho)
      case inr ho => exact absurd hc (he x.1 x.2 ho)

theorem parameters_of_foldlM (hf : ∀ i ∈ is, i.op? = some .function → i.resultId? ≠ some function)
    (h : is.foldlM step s = .ok s') : s'.parameters.getD function []
      = s.parameters.getD function [] ++ if s.open? = some function then headParameters is
        else [] := by
  -- Parameters belong to the open function, up to the next function or function end.
  induction is generalizing s
  case nil =>
    cases h
    simp [headParameters]
  case cons i is hi =>
    rw [foldlM_cons] at h
    rw [forall_mem_cons] at hf
    obtain ⟨s₁, h₁, h⟩ := ok_of_bind h
    rw [hi hf.right h]
    cases declares_of_step h₁
    case start ho hopen hpar =>
      have hb : i.isBoundary := by simp [Instruction.isBoundary, Instruction.is, ho]
      rw [hpar, hopen, if_neg (hf.left ho), headParameters_of_boundary hb, ite_self]
    case parameter function' id ho hopen hkept hid hpar =>
      rw [hpar, hkept, hopen, getD_appendAt, headParameters_of_parameter ho hid]
      by_cases heq : function' = function
      · simp [heq]
      · simp [heq]
    case finish ho hopen hpar =>
      have hb : i.isBoundary := by simp [Instruction.isBoundary, Instruction.is, ho]
      rw [hpar, hopen, if_neg (by simp), headParameters_of_boundary hb, ite_self]
    case stay ho hnone hkept hpar =>
      rw [hpar, hkept]
      split
      case isFalse => rfl
      case isTrue hopen =>
        have hclosed (hx : s.open? = none) : False := by simp [hx] at hopen
        rw [headParameters_of_other]
        · intro hb
          obtain hb | hb := Bool.or_eq_true _ _ ▸ hb
          · exact ho (Instruction.op?_of_is hb)
          · exact hclosed (hnone (.inr (Instruction.op?_of_is hb)))
        · exact fun hp => hclosed (hnone (.inl hp))

end FunctionScan

namespace Binary

variable {b : Binary} {function parameter argument : Id} {call : Instruction} {k : Nat}

def Declares (b : Binary) (function : Id) (parameters : List Id) : Prop :=
  ∃ before start after, b.instructions.toList = before ++ start :: after
    ∧ start.op? = some .function
    ∧ start.resultId? = some function ∧ headParameters after = parameters

structure Passes (b : Binary) (call : Instruction) (parameter argument : Id) : Prop where
  op       : call.op? = some .functionCall
  position : ∃ function parameters k, call.word? 3 = some function ∧ b.Declares function parameters
    ∧ parameters[k]? = some parameter ∧ call.word? (4 + k) = some argument

def stream (b : Binary) : Set Instruction :=
  {i | i ∈ b.instructions.toList}

inductive Derives (b : Binary) (back : Op → List Nat) (code : Set Instruction) (a c : Id) : Prop
  | operand {i k} : b.definition? a = some i → i ∈ code → i.Refers back k c →
      Derives b back code a c
  | argument {call : Instruction} : call ∈ code → b.Passes call a c → Derives b back code a c

theorem Valid.parameters_eq (hv : b.Valid) {s : FunctionScan}
    (h : b.instructions.toList.foldlM FunctionScan.step {} = .ok s) {parameters : List Id}
    (hd : b.Declares function parameters) : s.parameters.getD function [] = parameters := by
  obtain ⟨before, start, after, hl, ho, hid, rfl⟩ := hd
  have hn := hv.nodup
  simp only [ids, hl, filterMap_append, filterMap_cons, hid, nodup_append, nodup_cons] at hn
  obtain ⟨_, ⟨hafter, _⟩, hbefore⟩ := hn
  have hother {is : List Instruction} (hnot : function ∉ is.filterMap Instruction.resultId?) :
      ∀ i ∈ is, i.op? = some .function → i.resultId? ≠ some function :=
    fun i hi _ hr => hnot (mem_filterMap.mpr ⟨i, hi, hr⟩)
  rw [hl, foldlM_append] at h
  obtain ⟨s₁, h₁, h⟩ := ok_of_bind h
  rw [foldlM_cons] at h
  obtain ⟨s₂, h₂, h⟩ := ok_of_bind h
  have hp₁ := FunctionScan.parameters_of_foldlM
    (hother fun hm => hbefore function hm function mem_cons_self rfl) h₁
  have hp := FunctionScan.parameters_of_foldlM (hother hafter) h
  cases FunctionScan.declares_of_step h₂
  case start hopen hpar =>
    rw [hp, hpar, hp₁, hopen, hid]
    simp [FunctionScan.open?]
  case parameter ho' _ _ _ _ => simp [ho] at ho'
  case finish ho' _ _ => simp [ho] at ho'
  case stay ho' _ _ _ => exact absurd ho ho'

theorem Valid.getElem?_parameters (hv : b.Valid) {s : FunctionScan}
    (h : b.instructions.toList.foldlM FunctionScan.step {} = .ok s) :
    (s.parameters.getD function [])[k]? = some parameter
      ↔ ∃ parameters, b.Declares function parameters ∧ parameters[k]? = some parameter := by
  constructor
  case mp =>
    intro hk
    by_cases hf : ∃ start ∈ b.instructions.toList, start.op? = some .function
      ∧ start.resultId? = some function
    case pos =>
      obtain ⟨start, hmem, ho, hid⟩ := hf
      obtain ⟨before, after, hl⟩ := append_of_mem hmem
      have hd : b.Declares function (headParameters after) :=
        ⟨before, start, after, hl, ho, hid, rfl⟩
      exact ⟨_, hd, hv.parameters_eq h hd ▸ hk⟩
    case neg =>
      have hnone := FunctionScan.parameters_of_foldlM (fun i hi ho hid => hf ⟨i, hi, ho, hid⟩) h
      simp [hnone, FunctionScan.open?] at hk
  case mpr =>
    rintro ⟨parameters, hd, hk⟩
    rwa [hv.parameters_eq h hd]

end Binary

namespace Catalog

variable {parameters t t' : Std.TreeMap Id (List Id)} {call : Instruction}
  {calls : List Instruction} {p x : Id}

theorem mem_foldl_appendAt {l : List (Id × Id)} :
    x ∈ (l.foldl (fun t (parameter, argument) => appendAt t parameter argument) t).getD p []
      ↔ x ∈ t.getD p [] ∨ (p, x) ∈ l := by
  induction l generalizing t
  case nil => simp
  case cons a l hi =>
    rw [foldl_cons, hi, getD_appendAt, mem_cons]
    split
    case isTrue h => simp [← h, Prod.ext_iff, or_assoc]
    case isFalse h => simp [Prod.ext_iff, Ne.symm h]

theorem mem_of_bindArguments (h : bindArguments parameters t call = .ok t') :
    x ∈ t'.getD p [] ↔ x ∈ t.getD p []
      ∨ ∃ function k, call.word? 3 = some function ∧ (parameters.getD function [])[k]? = some p
        ∧ call.word? (4 + k) = some x := by
  obtain ⟨function, hf, h⟩ := ok_of_bind h
  cases h
  have hzip : (p, x) ∈ (parameters.getD function []).zip (call.words.drop 4)
      ↔ ∃ k, (parameters.getD function [])[k]? = some p ∧ call.word? (4 + k) = some x := by
    simp only [mem_iff_getElem?, getElem?_zip_eq_some, getElem?_drop, Instruction.word?]
  rw [mem_foldl_appendAt, hzip]
  simp [Instruction.word?_of_word hf]

theorem mem_of_foldlM_bindArguments (h : calls.foldlM (bindArguments parameters) t = .ok t') :
    x ∈ t'.getD p [] ↔ x ∈ t.getD p [] ∨ ∃ call ∈ calls, ∃ function k, call.word? 3 = some function
      ∧ (parameters.getD function [])[k]? = some p ∧ call.word? (4 + k) = some x := by
  induction calls generalizing t
  case nil =>
    cases h
    simp
  case cons call calls hi =>
    rw [foldlM_cons] at h
    obtain ⟨t₁, h₁, h⟩ := ok_of_bind h
    rw [hi h, mem_of_bindArguments h₁, or_assoc]
    simp only [mem_cons, exists_eq_or_imp]

end Catalog

namespace Outline

variable {o : Outline} {parameter argument : Id}

namespace IsRead

theorem mem_argumentsOf (h : o.IsRead) : argument ∈ o.argumentsOf parameter
    ↔ ∃ call ∈ o.instructions.toList, o.Passes call parameter argument := by
  obtain ⟨_, hc⟩ := of_ofBinary h.outline
  obtain ⟨s, hs, harguments⟩ := hc.arguments
  rw [argumentsOf, Catalog.mem_of_foldlM_bindArguments harguments]
  simp only [h.valid.getElem?_parameters hs, mem_filter]
  constructor
  case mp =>
    rintro (hx | ⟨call, ⟨hcall, ho⟩, function, k, hw, ⟨parameters, hd, hk⟩, hx⟩)
    · simp at hx
    · exact ⟨call, hcall, by simpa [Option.any_eq_true] using ho, function, parameters, k, hw,
        hd, hk, hx⟩
  case mpr =>
    rintro ⟨call, hcall, ho, function, parameters, k, hw, hd, hk, hx⟩
    exact .inr ⟨call, ⟨hcall, by simp [ho]⟩, function, k, hw, ⟨parameters, hd, hk⟩, hx⟩

theorem opOf?_of_passes (h : o.IsRead) {call : Instruction}
    (hp : o.Passes call parameter argument) :
    o.opOf? parameter = some .functionParameter := by
  obtain ⟨_, parameters, k, _, ⟨before, start, after, hl, _, _, rfl⟩, hk, _⟩ := hp.position
  obtain ⟨i, hi, hid⟩ := mem_filterMap.mp (mem_of_getElem? hk)
  obtain ⟨hafter, his⟩ := mem_filter.mp hi
  have hmem : i ∈ o.instructions.toList := by
    rw [hl]
    exact mem_append_right _ (mem_cons_of_mem _ ((takeWhile_sublist _).subset hafter))
  rw [Binary.opOf?, h.indexed.definition?_eq_some_iff.mpr ⟨hmem, hid⟩]
  exact Instruction.op?_of_is his

theorem definition?_of_derives (h : o.IsRead) {back : Op → List Nat} {code : Set Instruction}
    {a c : Id} (hder : o.Derives back code a c) : ∃ i, o.definition? a = some i := by
  cases hder
  case operand hd _ _ => exact ⟨_, hd⟩
  case argument hp =>
    obtain ⟨i, hd, _⟩ := Option.bind_eq_some_iff.mp (h.opOf?_of_passes hp)
    exact ⟨i, hd⟩

end IsRead
end Outline
end Shader
