import Shader.Proofs.Draft.Ledger
import Shader.Proofs.Draft.Written

namespace Shader

open List

namespace Statement

theorem is_iff {s : Statement} {op : Op} : s.is op = true ↔ s.op? = some op := by
  simp [is]

theorem section?_of_op? {s : Statement} {op : Op} (h : s.op? = some op) (hf : op ≠ .function)
    (he : op ≠ .functionEnd) : s.section? = some op.layoutSection := by
  unfold section?
  split <;> simp_all

end Statement

theorem pushLast?_concat (s : Statement) (blocks : List Block) (b : Block) :
    pushLast? s (blocks ++ [b]) = some (blocks ++ [b.push s]) := by
  induction blocks
  case nil => rfl
  case cons c blocks hi =>
    cases h : blocks ++ [b]
    case nil => simp at h
    case cons => simp [pushLast?, h] at hi ⊢; simp [hi]

namespace Splitting

inductive Adds (p : Splitting) (s : Statement) : Splitting → Prop
  | declare {sec} : p.current = none → s.section? = some sec →
    Adds p s ⟨(p.draft.noteType s).push s sec, none⟩
  | start : p.current = none → s.op? = some .function →
    Adds p s ⟨p.draft.noteType s, some { definition := s }⟩
  | parameter {f} : p.current = some f → f.blocks = [] → s.op?.any OpenFunction.isHead →
    Adds p s ⟨p.draft.noteType s, some { f with parameters := f.parameters ++ [s] }⟩
  | label {f} : p.current = some f → s.op? = some .label →
    Adds p s ⟨p.draft.noteType s, some { f with blocks := f.blocks ++ [⟨s.resultId.getD 0, []⟩] }⟩
  | code {f blocks b} : p.current = some f → f.blocks = blocks ++ [b] → s.op? ≠ some .label →
    s.op? ≠ some .functionEnd →
    Adds p s ⟨p.draft.noteType s, some { f with blocks := blocks ++ [b.push s] }⟩
  | finish {f} : p.current = some f → s.op? = some .functionEnd →
    Adds p s ⟨(p.draft.noteType s).pushFunction (f.close s), none⟩

variable {p p' p'' : Splitting} {s : Statement} {offset : Nat} {ss ss' : List Statement}

theorem adds_of_add (h : p.add s offset = .ok p') : p.Adds s p' := by
  unfold add at h
  split at h
  case h_1 f hc =>
    split at h
    case isTrue he =>
      cases h
      exact .finish hc (Statement.is_iff.mp he)
    case isFalse he =>
      have he : s.op? ≠ some .functionEnd := he ∘ Statement.is_iff.mpr
      simp only [OpenFunction.push, bind, Except.bind] at h
      split at h
      case h_1 => cases h
      case h_2 f' hf =>
        cases h
        split at hf
        case isTrue hp =>
          cases hf
          simp only [Bool.and_eq_true, List.isEmpty_iff] at hp
          exact .parameter hc hp.left hp.right
        case isFalse =>
          split at hf
          case isTrue hl =>
            cases hf
            exact .label hc (Statement.is_iff.mp hl)
          case isFalse hl =>
            obtain hb | ⟨blocks, b, hb⟩ := eq_nil_or_concat f.blocks
            -- Code needs a block to stand in.
            · simp [hb, pushLast?] at hf
            · rw [concat_eq_append] at hb
              rw [hb, pushLast?_concat] at hf
              cases hf
              exact .code hc hb (hl ∘ Statement.is_iff.mpr) he
  case h_2 hc =>
    split at h
    case h_1 ho =>
      cases h
      exact .start hc ho
    case h_2 => cases h
    case h_3 op hf he ho =>
      cases h
      exact .declare hc (Statement.section?_of_op? ho hf he)
    case h_4 ho =>
      cases h
      exact .declare hc (by simp [Statement.section?, ho])

theorem add_of_adds (h : p.Adds s p') : p.add s offset = .ok p' := by
  unfold add
  cases h
  case declare sec hc hs =>
    simp only [hc]
    unfold Statement.section? at hs
    split at hs <;> simp_all [pure, Except.pure]
  case start hc ho => simp [hc, ho, pure, Except.pure]
  case finish hc ho => simp [hc, Statement.is_iff.mpr ho, pure, Except.pure]
  case parameter hc hb hh =>
    have he : s.is .functionEnd = false := by
      cases ho : s.op? <;> simp_all [Statement.is]
      rintro rfl
      simp [OpenFunction.isHead] at hh
    simp [hc, he, OpenFunction.push, hb, hh, pure, Except.pure, bind, Except.bind]
  case label hc ho =>
    simp [hc, ho, OpenFunction.push, Statement.is, OpenFunction.isHead, pure, Except.pure, bind,
      Except.bind]
  case code hc hb hl he =>
    simp [hc, hb, hl, he, OpenFunction.push, Statement.is, pushLast?_concat, pure,
      Except.pure, bind, Except.bind]

inductive Reads : Splitting → List Statement → Splitting → Prop
  | nil {p : Splitting} : Reads p [] p
  | cons {p p' p'' : Splitting} {s : Statement} {ss : List Statement} :
    Adds p s p' → Reads p' ss p'' → Reads p (s :: ss) p''

theorem Adds.reads (h : p.Adds s p') : p.Reads [s] p' :=
  .cons h .nil

theorem Reads.append (h : p.Reads ss p') (h' : p'.Reads ss' p'') : p.Reads (ss ++ ss') p'' := by
  induction h
  case nil => exact h'
  case cons ha _ hi => exact .cons ha (hi h')

theorem foldlM_step_eq_ok_iff {is : List Instruction} :
    is.foldlM step p = .ok p' ↔ p.Reads (is.map .ofInstruction) p' := by
  induction is generalizing p
  case nil =>
    simp only [foldlM_nil, pure, Except.pure, Except.ok.injEq, map_nil]
    exact ⟨fun h => h ▸ .nil, fun h => by cases h; rfl⟩
  case cons i is hi =>
    simp only [foldlM_cons, bind, Except.bind, map_cons, step]
    constructor
    case mp =>
      intro h
      split at h
      case h_1 => cases h
      case h_2 ha => exact .cons (adds_of_add ha) (hi.mp h)
    case mpr =>
      intro h
      cases h
      case cons ha hr =>
        rw [add_of_adds ha]
        exact hi.mpr hr

end Splitting

namespace OpenFunction

structure WellFormed (f : OpenFunction) : Prop where
  definition : f.definition.WellFormed ∧ f.definition.Fits ∧ f.definition.op? = some .function
  parameters : ∀ s ∈ f.parameters, s.WellFormed ∧ s.Fits ∧ s.op?.any isHead
  code       : ∀ b ∈ f.blocks, ∀ s ∈ b.body, s.IsCode

def defines (f : OpenFunction) : List Definition :=
  f.definition.defines ++ f.parameters.flatMap Statement.defines ++ f.blocks.flatMap Block.defines

end OpenFunction

namespace Draft

theorem WellFormed.noteType {d : Draft} (h : d.WellFormed) (s : Statement) :
    (d.noteType s).WellFormed := by
  rw [noteType_eq]
  exact ⟨h.sections, h.fits, h.functions⟩

theorem definitions_ofHeader (h : Header) : (ofHeader h).definitions = [] :=
  rfl

theorem getElem?_resultTypes_noteType (d : Draft) (s : Statement) (id : Id) :
    (d.noteType s).resultTypes[id]?
      = if s.resultId = some id ∧ s.resultType.isSome then s.resultType
        else d.resultTypes[id]? := by
  unfold noteType setResultType
  split
  case h_1 ht hi => simp [Std.ExtTreeMap.getElem?_insert, ht, hi]
  case h_2 hn =>
    cases ht : s.resultType <;> cases hi : s.resultId <;> simp
    exact absurd hi (hn _ _ ht)

end Draft

namespace Splitting

structure WellFormed (p : Splitting) : Prop where
  draft   : p.draft.WellFormed
  current : ∀ f ∈ p.current, f.WellFormed

def definitions (p : Splitting) : List Definition :=
  p.draft.definitions ++ p.current.toList.flatMap OpenFunction.defines

def Indexed (p : Splitting) : Prop :=
  ∀ id type, p.draft.resultTypes[id]? = some type ↔ (id, some type) ∈ p.definitions

variable {p p' p'' : Splitting} {s : Statement} {offset : Nat} {ss ss' : List Statement}

theorem WellFormed.within {d : Draft} {f : OpenFunction} (hd : d.WellFormed) (hf : f.WellFormed) :
    WellFormed ⟨d, some f⟩ :=
  ⟨hd, fun _ h => Option.some.inj h ▸ hf⟩

theorem Adds.wellFormed (h : p.Adds s p') (hp : p.WellFormed) (hs : s.WellFormed) (hf : s.Fits) :
    p'.WellFormed := by
  have hn := hp.draft.noteType s
  cases h
  case declare hc hb => exact ⟨hn.push hs hb hf, by simp⟩
  case start hc ho => exact .within hn ⟨⟨hs, hf, ho⟩, by simp, by simp⟩
  case parameter f hc hb hh =>
    have hw := hp.current f hc
    refine .within hn { hw with parameters := ?_ }
    intro s' hs'
    rw [mem_append, mem_singleton] at hs'
    cases hs'
    case inl hs' => exact hw.parameters s' hs'
    case inr hs' => exact hs' ▸ ⟨hs, hf, hh⟩
  case label f hc ho =>
    have hw := hp.current f hc
    refine .within hn { hw with code := ?_ }
    simpa [or_imp, forall_and] using hw.code
  case code f blocks b hc hb hl he =>
    have hw := hp.current f hc
    refine .within hn { hw with code := ?_ }
    have hcode := hw.code
    rw [hb] at hcode
    simp only [mem_append, mem_singleton, or_imp, forall_and, forall_eq, Block.push] at hcode ⊢
    exact ⟨hcode.left, hcode.right, { hs with fits := hf, label := hl, ending := he }⟩
  case finish f hc ho =>
    have hw := hp.current f hc
    exact ⟨hn.pushFunction { hw with close := ⟨hs, hf, ho⟩ }, by simp⟩

-- A label has no type, and it is all of its instruction that is kept.
theorem defines_label (hs : s.WellFormed) (ho : s.op? = some .label) :
    s.defines = [(s.resultId.getD 0, none)] := by
  have ht := hs.type
  have hr := hs.result
  simp only [Statement.outcome, ho, Option.elim_some] at ht hr
  obtain ⟨id, hid⟩ := Option.isSome_iff_exists.mp hr
  obtain hn := Option.isSome_eq_false_iff.mp ht
  simp_all [Statement.defines]

theorem Adds.definitions (h : p.Adds s p') (hs : s.WellFormed) :
    p'.definitions ~ p.definitions ++ s.defines := by
  unfold Splitting.definitions
  cases h
  case declare hc hb =>
    simpa [hc] using Draft.push_definitions (d := p.draft.noteType s) s _
  case start hc ho => simp [hc, OpenFunction.defines]
  case parameter f hc hb hh => simp [hc, hb, OpenFunction.defines]
  case label f hc ho => simp [hc, OpenFunction.defines, defines_label hs ho, Block.defines_eq]
  case code f blocks b hc hb hl he =>
    simp [hc, hb, OpenFunction.defines, Block.defines_eq, Block.push]
  case finish f hc ho =>
    simp [hc, Draft.pushFunction_definitions, FunctionDraft.defines_eq, OpenFunction.close,
      OpenFunction.defines]

theorem Adds.resultTypes (h : p.Adds s p') :
    p'.draft.resultTypes = (p.draft.noteType s).resultTypes := by
  cases h <;> simp [Draft.pushFunction]

theorem Adds.indexed (h : p.Adds s p') (hs : s.WellFormed) (hx : p.Indexed)
    (hd : (p'.definitions.map Prod.fst).Nodup) : p'.Indexed := by
  have hp := h.definitions hs
  have hd := ((hp.map Prod.fst).nodup_iff).mp hd
  intro id type
  rw [hp.mem_iff, mem_append, h.resultTypes, Draft.getElem?_resultTypes_noteType, ← hx]
  split
  case isTrue ht =>
    have hn : (id, some type) ∉ p.definitions := by
      intro hm
      rw [map_append, nodup_append] at hd
      exact hd.right.right id (mem_map_of_mem hm) id (by simp [Statement.defines, ht.left]) rfl
    rw [← hx] at hn
    simp [hn, Statement.defines, ht.left, eq_comm]
  case isFalse hn =>
    have hm : (id, some type) ∉ s.defines := by
      intro hm
      simp only [Statement.defines, mem_map, Option.mem_toList, Prod.mk.injEq] at hm
      obtain ⟨_, hid, rfl, ht⟩ := hm
      exact hn ⟨hid, by simp [ht]⟩
    simp [hm]

theorem Reads.definitions (h : p.Reads ss p') (hs : ∀ s ∈ ss, s.WellFormed) :
    p'.definitions ~ p.definitions ++ ss.flatMap Statement.defines := by
  induction h
  case nil => simp
  case cons ha _ hi =>
    rw [forall_mem_cons] at hs
    refine (hi hs.right).trans ?_
    rw [flatMap_cons, ← append_assoc]
    exact (ha.definitions hs.left).append_right _

theorem Reads.wellFormed (h : p.Reads ss p') (hs : ∀ s ∈ ss, s.WellFormed ∧ s.Fits)
    (hp : p.WellFormed) :
    p'.WellFormed := by
  induction h
  case nil => exact hp
  case cons ha _ hi =>
    rw [forall_mem_cons] at hs
    exact hi hs.right (ha.wellFormed hp hs.left.left hs.left.right)

theorem Reads.indexed (h : p.Reads ss p') (hs : ∀ s ∈ ss, s.WellFormed) (hx : p.Indexed)
    (hd : (p'.definitions.map Prod.fst).Nodup) : p'.Indexed := by
  induction h
  case nil => exact hx
  case cons ha hr hi =>
    rw [forall_mem_cons] at hs
    have hd' := ((hr.definitions hs.right).map Prod.fst).nodup_iff.mp hd
    rw [map_append] at hd'
    exact hi hs.right (ha.indexed hs.left hx hd'.of_append_left) hd

theorem Reads.draft_indexed {header : Header} {d : Draft}
    (h : Reads ⟨.ofHeader header, none⟩ ss ⟨d, none⟩) (hs : ∀ s ∈ ss, s.WellFormed)
    (hd : (d.definitions.map Prod.fst).Nodup) : d.Indexed := by
  have hx : Indexed ⟨.ofHeader header, none⟩ := by
    intro id type
    rw [Splitting.definitions, Draft.definitions_ofHeader]
    simp [Draft.ofHeader]
  have hr := h.indexed hs hx (by simpa [Splitting.definitions] using hd)
  intro id type
  simpa [Splitting.definitions] using hr id type

theorem Adds.header (h : p.Adds s p') : p'.draft.header = p.draft.header := by
  have hn := p.draft.header_noteType s
  cases h
  case declare sec _ _ => cases sec <;> exact hn
  all_goals exact hn

theorem Reads.header (h : p.Reads ss p') : p'.draft.header = p.draft.header := by
  induction h
  case nil => rfl
  case cons ha _ hi => exact hi.trans ha.header

end Splitting

namespace Draft

theorem ofBinary_eq_ok_iff {b : Binary} {d : Draft} : ofBinary b = .ok d ↔
    Splitting.Reads ⟨.ofHeader b.header, none⟩ (b.instructions.toList.map .ofInstruction)
      ⟨d, none⟩ := by
  rw [← Splitting.foldlM_step_eq_ok_iff]
  simp only [ofBinary, bind, Except.bind]
  split
  case h_1 he => simp [he]
  case h_2 p he =>
    obtain ⟨draft, current⟩ := p
    cases current <;> simp [he, pure, Except.pure]

end Draft

def Binary.defines (b : Binary) : List Definition :=
  b.instructions.toList.flatMap fun i => (Statement.ofInstruction i).defines

theorem Binary.map_fst_defines (b : Binary) : b.defines.map Prod.fst = b.ids := by
  have h := map_fst_flatMap_defines (b.instructions.toList.map Statement.ofInstruction)
  rw [flatMap_map, filterMap_map] at h
  exact h

namespace Draft

variable {b : Binary} {d : Draft}

theorem ofBinary_wellFormed (h : ofBinary b = .ok d) (hb : b.Valid) : d.WellFormed := by
  refine (Splitting.Reads.wellFormed (ofBinary_eq_ok_iff.mp h) ?_ ⟨⟨?_, ?_, ?_⟩, ?_⟩).draft
  case refine_1 =>
    rw [forall_mem_map]
    exact fun i hi => ⟨(hb.framed i hi).wellFormed.left, (hb.framed i hi).fits⟩
  all_goals simp [ofHeader, inSection]
  all_goals intro sec; cases sec <;> simp

theorem forall_wellFormed (hb : b.Valid) :
    ∀ s ∈ b.instructions.toList.map Statement.ofInstruction, s.WellFormed := by
  rw [forall_mem_map]
  exact fun i hi => (hb.framed i hi).wellFormed.left

theorem ofBinary_definitions (h : ofBinary b = .ok d) (hb : b.Valid) :
    d.definitions ~ b.defines := by
  have hr := (ofBinary_eq_ok_iff.mp h).definitions (forall_wellFormed hb)
  simp only [Splitting.definitions, definitions_ofHeader, Option.toList_none, flatMap_nil,
    append_nil, nil_append, flatMap_map] at hr
  exact hr

theorem ofBinary_header (h : ofBinary b = .ok d) : d.header = (ofHeader b.header).header :=
  (ofBinary_eq_ok_iff.mp h).header

theorem ofBinary_sound (h : ofBinary b = .ok d) (hb : b.Valid) : d.Sound := by
  have hp := (ofBinary_definitions h hb).map Prod.fst
  rw [b.map_fst_defines] at hp
  refine ⟨hp.nodup_iff.mpr hb.nodup, fun x hx => ?_⟩
  have hbound : d.bound = b.header.bound := congrArg Header.bound (ofBinary_header h)
  exact hbound ▸ hb.below x.1 (hp.mem_iff.mp (mem_map_of_mem hx))

theorem ofBinary_indexed (h : ofBinary b = .ok d) (hb : b.Valid) : d.Indexed :=
  (ofBinary_eq_ok_iff.mp h).draft_indexed (forall_wellFormed hb) (ofBinary_sound h hb).nodup

end Draft

namespace Module

theorem toBinary_of_ofBinary {b : Binary} {m : Module} (h : ofBinary b = .ok m) :
    m.toBinary = b := by
  have ⟨o, ho, h⟩ := ok_of_bind h
  have ⟨findings, hf, h⟩ := ok_of_bind h
  have ⟨entries, _, h⟩ := ok_of_bind h
  have ⟨structs, _, hf⟩ := ok_of_bind hf
  have ⟨accesses, _, hf⟩ := ok_of_bind hf
  have ⟨images, _, hf⟩ := ok_of_bind hf
  have ⟨catalog, _, ho⟩ := ok_of_bind ho
  have ⟨decorations, _, ho⟩ := ok_of_bind ho
  have ⟨modes, _, ho⟩ := ok_of_bind ho
  cases ho
  cases hf
  cases h
  rfl

theorem read_of_ofWords {words : List Word} {m : Module} (h : ofWords words = .ok m) :
    Binary.read (Header.nativeOrder words) = .ok m.toBinary := by
  have ⟨b, hb, h⟩ := ok_of_bind h
  rw [toBinary_of_ofBinary (ok_of_mapError h)]
  exact ok_of_mapError hb

end Module
end Shader
