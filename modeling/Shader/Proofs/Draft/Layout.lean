import Shader.Instrument.Pipeline
import Shader.Proofs.Draft.Readback
import Shader.Proofs.Stream.Grammar

namespace Shader

open List

section

variable {α : Type} (key : α → Nat) (l : List α)

theorem le_trans_key (a b c : α) :
    decide (key a ≤ key b) → decide (key b ≤ key c) → decide (key a ≤ key c) := by
  simpa using Nat.le_trans

theorem le_total_key (a b : α) : decide (key a ≤ key b) || decide (key b ≤ key a) := by
  simpa using Nat.le_total _ _

theorem filter_mergeSort (k : Nat) :
    (l.mergeSort (key · ≤ key ·)).filter (key · = k) = l.filter (key · = k) := by
  have hpair : (l.filter (key · = k)).Pairwise (fun a b => decide (key a ≤ key b)) := by
    refine pairwise_of_forall_mem_list fun a ha b hb => ?_
    simp only [mem_filter, decide_eq_true_eq] at ha hb
    simp [ha.right, hb.right]
  have hsub : l.filter (key · = k) <+ l.mergeSort (key · ≤ key ·) :=
    sublist_mergeSort (le_trans_key key) (le_total_key key) hpair filter_sublist
  have hfilter := hsub.filter (key · = k)
  rw [filter_filter, show (fun a => decide (key a = k) && decide (key a = k)) = (key · = k) by simp]
    at hfilter
  exact (hfilter.eq_of_length ((mergeSort_perm l _).filter _).length_eq.symm).symm

theorem filter_lt_succ {l : List α} (h : l.Pairwise (key · ≤ key ·)) (n : Nat) :
    l.filter (key · < n + 1) = l.filter (key · < n) ++ l.filter (key · = n) := by
  induction l
  case nil => rfl
  case cons a l hi =>
    rw [pairwise_cons] at h
    have hi := hi h.right
    simp only [filter_cons, decide_eq_true_eq]
    obtain hlt | heq | hgt := Nat.lt_trichotomy (key a) n
    · rw [if_pos (by omega), if_pos hlt, if_neg (by omega), hi, cons_append]
    · have hnil : l.filter (key · < n) = [] := by
        simpa [filter_eq_nil_iff] using fun b hb => heq ▸ h.left b hb
      rw [if_pos (by omega), if_neg (by omega), if_pos heq, hi, hnil, nil_append, nil_append]
    · rw [if_neg (by omega), if_neg (by omega), if_neg (by omega), hi]

theorem mergeSort_eq_flatMap {n : Nat} (hn : ∀ a ∈ l, key a < n) :
    l.mergeSort (key · ≤ key ·) = (range n).flatMap fun k => l.filter (key · = k) := by
  have hsorted : (l.mergeSort (key · ≤ key ·)).Pairwise (key · ≤ key ·) := by
    have hp := pairwise_mergeSort (le_trans_key key) (le_total_key key) l
    simpa using hp
  have hbuckets (m : Nat) : (l.mergeSort (key · ≤ key ·)).filter (key · < m)
      = (range m).flatMap fun k => l.filter (key · = k) := by
    induction m
    case zero => simp
    case succ m hi =>
      rw [filter_lt_succ key hsorted, hi, filter_mergeSort, range_succ, flatMap_append,
        flatMap_singleton]
  rw [← hbuckets, eq_comm, filter_eq_self]
  intro a ha
  exact decide_eq_true (hn a (mem_mergeSort.mp ha))

end

def Section.rank (sec : Section) : Nat :=
  Section.all.idxOf sec

def functionRank : Nat :=
  Section.all.length

-- Each instruction with the rank of where it is written; `inside` says whether a function is open.
-- All from an `OpFunction` to the next `OpFunctionEnd` is part of the function.
def ranked {α : Type} (op? : α → Option Op) : (inside : Bool) → List α → List (Nat × α)
  | _, [] => []
  | inside, a :: as =>
    let within := inside || op? a == some .function
    let rank := if within then functionRank else ((op? a).elim .globals Op.layoutSection).rank
    (rank, a) :: ranked op? (within && op? a != some .functionEnd) as

def layout (is : List Instruction) : List Instruction :=
  ((ranked Instruction.op? false is).mergeSort (·.1 ≤ ·.1)).map Prod.snd

theorem Section.rank_lt (sec : Section) : sec.rank < functionRank := by
  cases sec <;> decide

theorem Section.rank_inj {sec sec' : Section} : sec.rank = sec'.rank ↔ sec = sec' := by
  cases sec <;> cases sec' <;> decide

theorem Section.map_rank_all : Section.all.map Section.rank = range functionRank := by
  decide

theorem rank_le_of_mem_ranked {α : Type} {op? : α → Option Op} {inside : Bool} {as : List α}
    {x : Nat × α} (h : x ∈ ranked op? inside as) : x.1 < functionRank + 1 := by
  induction as generalizing inside
  case nil => simp [ranked] at h
  case cons a as hi =>
    simp only [ranked, mem_cons] at h
    cases h
    case inl h =>
      subst h
      have hlt := ((op? a).elim .globals Op.layoutSection).rank_lt
      dsimp only
      split <;> omega
    case inr h => exact hi h

theorem map_snd_ranked {α : Type} (op? : α → Option Op) (inside : Bool) (as : List α) :
    (ranked op? inside as).map Prod.snd = as := by
  induction as generalizing inside
  case nil => rfl
  case cons a as hi => simp [ranked, hi]

theorem mem_of_mem_ranked {α : Type} {op? : α → Option Op} {inside : Bool} {as : List α}
    {x : Nat × α} (h : x ∈ ranked op? inside as) : x.2 ∈ as := by
  rw [← map_snd_ranked op? inside as]
  exact mem_map_of_mem h

theorem ranked_map {α β : Type} {op? : β → Option Op} (f : α → β) (inside : Bool) (as : List α) :
    ranked op? inside (as.map f) = (ranked (op? ∘ f) inside as).map (Prod.map id f) := by
  induction as generalizing inside
  case nil => rfl
  case cons a as hi => simp [ranked, hi]

namespace Statement

-- What is written of a statement of a function. Of a label only the id is kept.
def written (s : Statement) : Statement :=
  if s.op? = some .label then .new .label none s.resultId [] else s

theorem section?_eq_some_iff {s : Statement} {sec : Section} : s.section? = some sec ↔
    s.op? ≠ some .function ∧ s.op? ≠ some .functionEnd
      ∧ s.op?.elim .globals Op.layoutSection = sec := by
  unfold section?
  split <;> simp_all

end Statement

def OpenFunction.statements (f : OpenFunction) : List Statement :=
  f.definition :: f.parameters ++ f.blocks.flatMap Block.statements

namespace Splitting

variable {p p' : Splitting} {s : Statement} {ss : List Statement}

def inFunctions (p : Splitting) : List Statement :=
  p.draft.functions.flatMap FunctionDraft.statements
    ++ p.current.toList.flatMap OpenFunction.statements

def within (p : Splitting) (s : Statement) : Bool :=
  p.current.isSome || s.op? == some .function

theorem Adds.inSection (h : p.Adds s p') (sec : Section) :
    p'.draft.inSection sec = p.draft.inSection sec
      ++ if p.within s = false ∧ s.op?.elim .globals Op.layoutSection = sec then [s] else [] := by
  cases h
  case declare sec' hc hs =>
    obtain ⟨hf, _, rfl⟩ := Statement.section?_eq_some_iff.mp hs
    simp [within, hc, hf]
  case start hc ho => simp [within, ho]
  case finish hc ho =>
    have hp := Draft.inSection_noteType p.draft s sec
    cases sec <;> simpa [within, hc, Draft.pushFunction, Draft.inSection] using hp
  all_goals simp [within, *]

theorem Adds.inFunctions (h : p.Adds s p') (hs : s.WellFormed) :
    p'.inFunctions = p.inFunctions ++ if p.within s then [s.written] else [] := by
  unfold Splitting.inFunctions
  cases h
  case declare hc hs =>
    have ⟨hf, _, _⟩ := Statement.section?_eq_some_iff.mp hs
    simp [within, hc, hf]
  case start hc ho => simp [within, hc, ho, OpenFunction.statements, Statement.written]
  case parameter f hc hb hh =>
    have hl : s.op? ≠ some .label := fun hl => by simp [hl, OpenFunction.isHead] at hh
    simp [within, hc, hb, hl, OpenFunction.statements, Statement.written]
  case label f hc ho =>
    have hr := hs.result
    simp only [Statement.outcome, ho, Option.elim_some] at hr
    obtain ⟨id, hid⟩ := Option.isSome_iff_exists.mp hr
    simp [within, hc, ho, hid, OpenFunction.statements, Statement.written, Block.statements,
      Block.labelStatement]
  case code f blocks b hc hb hl he =>
    simp [within, hc, hb, hl, OpenFunction.statements, Statement.written, Block.statements,
      Block.push, Block.labelStatement]
  case finish f hc ho =>
    simp [within, hc, ho, OpenFunction.statements, OpenFunction.close, FunctionDraft.statements,
      Statement.written, Draft.pushFunction]

theorem Adds.isSome_current (h : p.Adds s p') :
    p'.current.isSome = (p.within s && s.op? != some .functionEnd) := by
  cases h
  case declare hc hs =>
    have ⟨hf, _, _⟩ := Statement.section?_eq_some_iff.mp hs
    simp [within, hc, hf]
  case parameter f hc hb hh =>
    have he : s.op? ≠ some .functionEnd := fun he => by simp [he, OpenFunction.isHead] at hh
    simp [within, hc, he]
  all_goals simp [within, *]

theorem Reads.ranked (h : p.Reads ss p') (hs : ∀ s ∈ ss, s.WellFormed) :
    (∀ sec, p'.draft.inSection sec = p.draft.inSection sec
      ++ ((ranked Statement.op? p.current.isSome ss).filter (·.1 = sec.rank)).map Prod.snd)
    ∧ p'.inFunctions = p.inFunctions
      ++ ((ranked Statement.op? p.current.isSome ss).filter (·.1 = functionRank)).map
        (·.2.written) := by
  induction h
  case nil => simp [Shader.ranked]
  case cons p p₁ p' s ss ha _ hi =>
    rw [forall_mem_cons] at hs
    obtain ⟨hsec, hcode⟩ := hi hs.right
    have hcur := ha.isSome_current
    have hcons : Shader.ranked Statement.op? p.current.isSome (s :: ss)
        = (if p.within s then functionRank else (s.op?.elim .globals Op.layoutSection).rank, s)
          :: Shader.ranked Statement.op? p₁.current.isSome ss := by
      rw [hcur]
      rfl
    refine ⟨fun sec => ?_, ?_⟩
    · rw [hsec, ha.inSection, hcons, append_assoc]
      have hne := Nat.ne_of_gt sec.rank_lt
      cases hw : p.within s
      case true => simp [hne]
      case false =>
        by_cases he : s.op?.elim .globals Op.layoutSection = sec <;> simp [he, Section.rank_inj]
    · rw [hcode, ha.inFunctions hs.left, hcons, append_assoc]
      have hne := Nat.ne_of_lt (s.op?.elim .globals Op.layoutSection).rank_lt
      cases hw : p.within s <;> simp [hne]

end Splitting

namespace Draft

variable {b : Binary} {d : Draft} {words : List Word}

-- What is written of an instruction with this rank.
def kept (x : Nat × Statement) : Statement :=
  if x.1 = functionRank then x.2.written else x.2

theorem statements_of_reads {header : Header} {ss : List Statement} (hs : ∀ s ∈ ss, s.WellFormed)
    (h : Splitting.Reads ⟨.ofHeader header, none⟩ ss ⟨d, none⟩) :
    d.statements = ((ranked Statement.op? false ss).mergeSort (·.1 ≤ ·.1)).map kept := by
  obtain ⟨hsec, hcode⟩ := h.ranked hs
  have hempty (sec : Section) : (ofHeader header).inSection sec = [] := by cases sec <;> rfl
  simp only [hempty, nil_append, Option.isSome_none] at hsec
  simp only [Splitting.inFunctions, ofHeader, Option.toList_none, flatMap_nil, append_nil,
    nil_append, Option.isSome_none] at hcode
  rw [mergeSort_eq_flatMap Prod.fst _ fun x hx => rank_le_of_mem_ranked hx, range_succ,
    flatMap_append, ← Section.map_rank_all, flatMap_map, flatMap_singleton, map_append, statements,
    declarations_eq, hcode]
  congr 1
  · rw [map_flatMap]
    refine flatMap_congr fun sec _ => ?_
    rw [hsec, map_inj_left]
    intro x hx
    have hx := of_decide_eq_true (mem_filter.mp hx).right
    simp [kept, hx, Nat.ne_of_lt sec.rank_lt]
  · rw [map_inj_left]
    intro x hx
    have hx := of_decide_eq_true (mem_filter.mp hx).right
    simp [kept, hx]

theorem functions_of_ofBinary (h : ofBinary b = .ok d) (hb : b.Valid) :
    d.functions.flatMap FunctionDraft.statements
      = ((ranked Instruction.op? false b.instructions.toList).filter (·.1 = functionRank)).map
        fun x => (Statement.ofInstruction x.2).written := by
  have ⟨_, hcode⟩ := (ofBinary_eq_ok_iff.mp h).ranked (forall_wellFormed hb)
  simp only [Splitting.inFunctions, ofHeader, Option.toList_none, flatMap_nil, append_nil,
    nil_append, Option.isSome_none] at hcode
  rw [hcode, ranked_map, filter_map, map_map]
  rfl

theorem inSection_of_ofBinary (h : ofBinary b = .ok d) (hb : b.Valid) (sec : Section) :
    d.inSection sec = ((ranked Instruction.op? false b.instructions.toList).filter
      (·.1 = sec.rank)).map fun x => .ofInstruction x.2 := by
  have ⟨hsec, _⟩ := (ofBinary_eq_ok_iff.mp h).ranked (forall_wellFormed hb)
  have hempty : (ofHeader b.header).inSection sec = [] := by cases sec <;> rfl
  rw [hsec, hempty, nil_append, Option.isSome_none, ranked_map, filter_map, map_map]
  rfl

theorem statements_of_ofBinary (h : ofBinary b = .ok d) (hb : b.Valid) :
    d.statements = ((ranked Instruction.op? false b.instructions.toList).mergeSort (·.1 ≤ ·.1)).map
      fun x => kept (x.1, .ofInstruction x.2) := by
  have hsort : ((ranked Instruction.op? false b.instructions.toList).mergeSort (·.1 ≤ ·.1)).map
      (Prod.map id Statement.ofInstruction) = _ :=
    map_mergeSort (s := fun x y => x.1 ≤ y.1) fun _ _ _ _ => rfl
  rw [statements_of_reads (forall_wellFormed hb) (ofBinary_eq_ok_iff.mp h), ranked_map,
    show Statement.op? ∘ Statement.ofInstruction = Instruction.op? from rfl, ← hsort, map_map]
  rfl

end Draft

theorem Word.ofHalves_high_low (w : Word) : ofHalves w.high w.low = w := by
  have hw := w.toNat_lt
  rw [← UInt32.toNat_inj, ofHalves, high, low,
    UInt32.toNat_ofNat_of_lt' (by simp [UInt32.size]; omega)]
  omega

namespace Instruction.Framed

variable {i : Instruction}

theorem words_ofInstruction (h : i.Framed) : (Statement.ofInstruction i).words = i.words := by
  have hs := h.size_lt
  have hl := h.wellFormed.right
  rw [Statement.words_eq, hl, ← h.length]
  obtain ⟨index, offset, words⟩ := i
  cases words
  case nil => exact absurd h.pos (by simp [Instruction.length])
  case cons w rest =>
    refine congrArg₂ cons w.ofHalves_high_low ?_
    simp only [Statement.ofInstruction, typeId?, resultId?, operands, operandsStart, word?]
    cases ho : outcome ⟨index, offset, w :: rest⟩
    case nothing => simp [Outcome.size]
    case named =>
      cases rest
      case nil => simp [ho, Outcome.size, Instruction.length] at hs
      case cons => simp [Outcome.size]
    case typed =>
      obtain _ | ⟨_, _ | _⟩ := rest
      case cons.cons => simp [Outcome.size]
      all_goals simp [ho, Outcome.size, Instruction.length] at hs

theorem words_kept (h : i.Framed) {rank : Nat}
    (hl : rank = functionRank → i.op? = some .label → i.length = 2) :
    (Draft.kept (rank, .ofInstruction i)).words = i.words := by
  unfold Draft.kept Statement.written
  split
  case isFalse => exact h.words_ofInstruction
  case isTrue hr =>
    split
    case isFalse => exact h.words_ofInstruction
    case isTrue ho =>
      -- A label of two words has no operands.
      rw [← h.words_ofInstruction]
      have hlen := h.wellFormed.right.trans (hl hr ho)
      have ht := h.wellFormed.left.type
      have hres := h.wellFormed.left.result
      have hop : (Statement.ofInstruction i).opcode = Op.label.number :=
        (Op.number_of_ofNumber? ho).symm
      simp only [Statement.outcome, ho, Option.elim_some] at ht hres
      generalize Statement.ofInstruction i = s at *
      obtain ⟨opcode, type, id, operands, origin⟩ := s
      obtain rfl : type = none := Option.isSome_eq_false_iff.mp ht |> Option.isNone_iff_eq_none.mp
      obtain ⟨id, rfl⟩ := Option.isSome_iff_exists.mp hres
      obtain rfl : operands = [] := by
        rw [← length_eq_zero_iff]
        simpa [Statement.length] using hlen
      simp only at hop
      simp [hop, Statement.new, Statement.words, Statement.length]

end Instruction.Framed

namespace Draft

variable {b : Binary} {d : Draft} {words : List Word}

theorem words_of_ofBinary (h : ofBinary b = .ok d) (hb : b.Valid)
    (hm : b.header.magic = Header.magicNumber)

    (hl : ∀ x ∈ ranked Instruction.op? false b.instructions.toList, x.1 = functionRank →
      x.2.op? = some .label → x.2.length = 2) :
    d.words = b.header.words ++ (layout b.instructions.toList).flatMap Instruction.words := by
  have hheader : d.header = b.header := by
    rw [ofBinary_header h]
    simp [ofHeader, header, ← hm]
  rw [words_eq, hheader, statements_of_ofBinary h hb, layout, flatMap_map, flatMap_map]
  refine congrArg _ (flatMap_congr fun x hx => ?_)
  have hx := mem_mergeSort.mp hx
  exact (hb.framed x.2 (mem_of_mem_ranked hx)).words_kept (hl x hx)

end Draft
end Shader
