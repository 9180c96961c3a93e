import Shader.Proofs.Draft.Split

namespace Shader

open List

namespace Binary

variable {bound : Word} (offset : Nat) {a : Accepted} {ss : List Statement}

def written (index offset : Nat) : List Statement → List Instruction
  | [] => []
  | s :: ss => s.instruction index offset :: written (index + 1) (offset + s.length) ss

section

variable {s : Statement} (rest : List Word) (hs : s.WellFormed) (hf : s.Fits)

include hs hf

theorem next_words : a.next offset (.ofHalves s.length s.opcode)
    (s.resultType.toList ++ s.resultId.toList ++ s.operands ++ rest)
      = s.instruction a.instructions.size offset := by
  have hl := s.length_words
  rw [Statement.words_eq, length_cons] at hl
  rw [Accepted.next, Word.high_ofHalves hf hs.opcode_lt, take_left' (by omega),
    Statement.instruction, Statement.words_eq]

theorem accepts_words (hr : ∀ id ∈ s.resultId, id < bound ∧ a.definitions[id]? = none) :
    a.Accepts bound offset (.ofHalves s.length s.opcode)
      (s.resultType.toList ++ s.resultId.toList ++ s.operands ++ rest) := by
  have hh : (Word.ofHalves s.length s.opcode).high = s.length := Word.high_ofHalves hf hs.opcode_lt
  have hl := s.length_words
  rw [Statement.words_eq, length_cons] at hl
  refine ⟨by omega, ?_, ?_, ?_⟩
  case refine_1 =>
    rw [hh, length_append]
    omega
  case refine_2 =>
    rw [Word.low_ofHalves hf hs.opcode_lt, hh]
    exact hs.least
  case refine_3 =>
    rw [next_words offset rest hs hf, Statement.resultId?_instruction hs hf]
    exact hr

theorem readFrom_words (hr : ∀ id ∈ s.resultId, id < bound ∧ a.definitions[id]? = none) :
    readFrom bound 0 offset (s.words ++ rest) a
      = readFrom bound 0 (offset + s.length) rest
        (a.withInstruction (s.instruction a.instructions.size offset)) := by
  have hp := Accepted.push_eq_ok_iff.mpr ⟨accepts_words offset rest hs hf hr, rfl⟩
  rw [next_words offset rest hs hf] at hp
  have hl := s.length_words
  rw [Statement.words_eq, length_cons] at hl
  have hskip : s.length - 1 = (s.resultType.toList ++ s.resultId.toList ++ s.operands).length := by
    omega
  rw [Statement.words_eq, cons_append]
  simp only [readFrom, hp, bind, Except.bind, Word.high_ofHalves hf hs.opcode_lt]
  rw [hskip, readFrom_skip, ← hskip]
  congr 1
  omega

end

theorem readFrom_flatMap_words (hv : a.Valid bound) (hs : ∀ s ∈ ss, s.WellFormed ∧ s.Fits)
    (hb : ∀ s ∈ ss, ∀ id ∈ s.resultId, id < bound)
    (hn : (a.ids ++ ss.filterMap Statement.resultId).Nodup) :
    ∃ a', readFrom bound 0 offset (ss.flatMap Statement.words) a = .ok a'
      ∧ a'.instructions.toList = a.instructions.toList ++ written a.instructions.size
        offset ss := by
  induction ss generalizing a offset
  case nil => exact ⟨a, rfl, by simp [written]⟩
  case cons s ss hi =>
    rw [forall_mem_cons] at hs hb
    have ⟨⟨hw, hf⟩, hs⟩ := hs
    have hn : (a.ids ++ s.resultId.toList ++ ss.filterMap Statement.resultId).Nodup := by
      cases hr : s.resultId <;> simpa [hr] using hn
    have hr : ∀ id ∈ s.resultId, id < bound ∧ a.definitions[id]? = none := by
      intro id hid
      refine ⟨hb.left id hid, ?_⟩
      have hd := (nodup_append.mp hn.of_append_left).right.right
      refine Std.TreeMap.getElem?_eq_none fun ha => ?_
      exact hd id ((hv.table id).mp ha) id (by simpa using hid) rfl
    have hv' := hv.withInstruction (accepts_words offset [] hw hf hr)
    rw [next_words offset [] hw hf] at hv'
    have ⟨a', ha, hl⟩ := hi (offset + s.length) hv' hs hb.right ?_
    case refine_1 => rwa [Accepted.ids_withInstruction, Statement.resultId?_instruction hw hf]
    refine ⟨a', ?_, hl.trans ?_⟩
    · rw [flatMap_cons, readFrom_words offset _ hw hf hr, ha]
    · simp [Accepted.withInstruction, written]

end Binary

theorem Header.read?_words {h : Header} (hm : h.magic = Header.magicNumber) (rest : List Word) :
    Header.read? (h.words ++ rest) = some h := by
  have hv := Word.byte_ofBytes 0 h.version.minor h.version.major 0
  simp only [Word.bytes, cons.injEq] at hv
  simp [words, read?, hm, Version.word, hv]
  rw [← hm]

def Statement.forget (s : Statement) : Statement :=
  { s with origin := none }

theorem Binary.forget_written {ss : List Statement} (index offset : Nat)
    (hs : ∀ s ∈ ss, s.WellFormed ∧ s.Fits) :
    ((written index offset ss).map Statement.ofInstruction).map Statement.forget
      = ss.map Statement.forget := by
  induction ss generalizing index offset
  case nil => rfl
  case cons s ss hi =>
    rw [forall_mem_cons] at hs
    have ⟨⟨hw, hf⟩, hs⟩ := hs
    simp only [written, map_cons, hi _ _ hs, Statement.ofInstruction_instruction hw hf,
      Statement.forget]

def Block.forget (b : Block) : Block :=
  { b with body := b.body.map Statement.forget }

def OpenFunction.forget (f : OpenFunction) : OpenFunction where
  definition := f.definition.forget
  parameters := f.parameters.map Statement.forget
  blocks := f.blocks.map Block.forget

def FunctionDraft.forget (f : FunctionDraft) : FunctionDraft where
  definition := f.definition.forget
  parameters := f.parameters.map Statement.forget
  blocks := f.blocks.map Block.forget
  close := f.close.forget

def Draft.forget (d : Draft) : Draft :=
  { d with
    capabilities := d.capabilities.map Statement.forget
    extensions := d.extensions.map Statement.forget
    imports := d.imports.map Statement.forget
    memoryModel := d.memoryModel.map Statement.forget
    entryPoints := d.entryPoints.map Statement.forget
    modes := d.modes.map Statement.forget
    debug := d.debug.map Statement.forget
    annotations := d.annotations.map Statement.forget
    globals := d.globals.map Statement.forget
    functions := d.functions.map FunctionDraft.forget }

def Splitting.forget (p : Splitting) : Splitting :=
  ⟨p.draft.forget, p.current.map OpenFunction.forget⟩

namespace Draft

theorem forget_noteType (d : Draft) (s : Statement) :
    (d.noteType s).forget = d.forget.noteType s.forget := by
  unfold noteType
  simp only [Statement.forget]
  split <;> rfl

theorem forget_push (d : Draft) (s : Statement) (sec : Section) :
    (d.push s sec).forget = d.forget.push s.forget sec := by
  cases sec <;> simp [push, forget]

theorem forget_pushFunction (d : Draft) (f : FunctionDraft) :
    (d.pushFunction f).forget = d.forget.pushFunction f.forget := by
  simp [pushFunction, forget]

end Draft

namespace Splitting

variable {p p' q : Splitting} {s t : Statement} {ss ts : List Statement}

theorem Adds.forget (h : p.Adds s p') (hp : p.forget = q.forget) (hs : s.forget = t.forget) :
    ∃ q', q.Adds t q' ∧ p'.forget = q'.forget := by
  obtain ⟨d, current⟩ := q
  have hd : p.draft.forget = d.forget := congrArg draft hp
  have hcur : p.current.map OpenFunction.forget = current.map OpenFunction.forget :=
    congrArg Splitting.current hp
  have hn : (p.draft.noteType s).forget = (d.noteType t).forget := by
    rw [Draft.forget_noteType, Draft.forget_noteType, hd, hs]
  have ho : t.op? = s.op? := (congrArg Statement.op? hs).symm
  have hsec : t.section? = s.section? := (congrArg Statement.section? hs).symm
  have hid : t.resultId = s.resultId := (congrArg Statement.resultId hs).symm
  -- The function that is open on one side is open on the other.
  have opened {f : OpenFunction} (hc : p.current = some f) :
      ∃ g, current = some g ∧ f.forget = g.forget := by
    rw [hc, Option.map_some, eq_comm, Option.map_eq_some_iff] at hcur
    have ⟨g, hg, heq⟩ := hcur
    exact ⟨g, hg, heq.symm⟩
  cases h
  case declare sec hc hb =>
    simp only [hc, Option.map_none, eq_comm (a := none), Option.map_eq_none_iff] at hcur
    refine ⟨_, .declare hcur (hsec.trans hb), ?_⟩
    simp [Splitting.forget, Draft.forget_push, hn, hs]
  case start hc hf =>
    simp only [hc, Option.map_none, eq_comm (a := none), Option.map_eq_none_iff] at hcur
    refine ⟨_, .start hcur (ho.trans hf), ?_⟩
    simp [Splitting.forget, hn, hs, OpenFunction.forget]
  case parameter f hc hb hh =>
    have ⟨g, hg, heq⟩ := opened hc
    simp only [OpenFunction.forget, OpenFunction.mk.injEq] at heq
    refine ⟨_, .parameter hg (by simpa [hb] using heq.right.right.symm) (ho ▸ hh), ?_⟩
    simp [Splitting.forget, hn, hs, OpenFunction.forget, heq]
  case label f hc hl =>
    have ⟨g, hg, heq⟩ := opened hc
    simp only [OpenFunction.forget, OpenFunction.mk.injEq] at heq
    refine ⟨_, .label hg (ho.trans hl), ?_⟩
    simp [Splitting.forget, hn, hid, OpenFunction.forget, heq]
  case code f blocks b hc hb hl he =>
    have ⟨g, hg, heq⟩ := opened hc
    simp only [OpenFunction.forget, OpenFunction.mk.injEq] at heq
    have hblocks := heq.right.right
    simp only [hb, map_append, map_cons, map_nil, eq_comm (b := map _ g.blocks), map_eq_append_iff,
      map_eq_singleton_iff] at hblocks
    obtain ⟨blocks', _, hg', hpre, b', rfl, hlast⟩ := hblocks
    refine ⟨_, .code hg hg' (ho ▸ hl) (ho ▸ he), ?_⟩
    simp only [Block.forget, Block.mk.injEq] at hlast
    simp [Splitting.forget, hn, hs, OpenFunction.forget, heq, hpre, Block.forget, Block.push, hlast]
  case finish f hc he =>
    have ⟨g, hg, heq⟩ := opened hc
    simp only [OpenFunction.forget, OpenFunction.mk.injEq] at heq
    refine ⟨_, .finish hg (ho.trans he), ?_⟩
    simp [Splitting.forget, Draft.forget_pushFunction, hn, hs, FunctionDraft.forget,
      OpenFunction.close, heq]

theorem Reads.forget (h : p.Reads ss p') (hp : p.forget = q.forget)
    (hs : ss.map Statement.forget = ts.map Statement.forget) :
    ∃ q', q.Reads ts q' ∧ p'.forget = q'.forget := by
  induction h generalizing q ts
  case nil =>
    obtain rfl : ts = [] := by simpa using hs.symm
    exact ⟨q, .nil, hp⟩
  case cons ha _ hi =>
    cases ts
    case nil => simp at hs
    case cons t ts =>
      simp only [map_cons, cons.injEq] at hs
      have ⟨q', ha', hq⟩ := ha.forget hp hs.left
      have ⟨q'', hr, hq⟩ := hi hq hs.right
      exact ⟨q'', .cons ha' hr, hq⟩

end Splitting

namespace Draft

def place (d : Draft) (s : Statement) : Draft :=
  (d.noteType s).push s (s.section?.getD .globals)

def note (d : Draft) (ss : List Statement) : Draft :=
  ss.foldl noteType d

def placeFunction (d : Draft) (f : FunctionDraft) : Draft :=
  (d.note f.statements).pushFunction f

@[simp]
theorem note_nil (d : Draft) : d.note [] = d :=
  rfl

@[simp]
theorem note_cons (d : Draft) (s : Statement) (ss : List Statement) :
    d.note (s :: ss) = (d.noteType s).note ss :=
  rfl

@[simp]
theorem note_append (d : Draft) (ss ts : List Statement) :
    d.note (ss ++ ts) = (d.note ss).note ts :=
  foldl_append

end Draft

namespace Splitting

variable {d : Draft} {ss : List Statement} {definition : Statement} {ps : List Statement}
  {bs : List Block}

theorem reads_declarations (hs : ∀ s ∈ ss, s.section?.isSome) :
    Reads ⟨d, none⟩ ss ⟨ss.foldl Draft.place d, none⟩ := by
  induction ss generalizing d
  case nil => exact .nil
  case cons s ss hi =>
    rw [forall_mem_cons] at hs
    obtain ⟨sec, hsec⟩ := Option.isSome_iff_exists.mp hs.left
    have ha := Adds.declare (p := ⟨d, none⟩) rfl hsec
    refine .cons ha ?_
    rw [foldl_cons, Draft.place, hsec]
    exact hi hs.right

theorem reads_parameters (hs : ∀ s ∈ ss, s.op?.any OpenFunction.isHead) :
    Reads ⟨d, some ⟨definition, ps, []⟩⟩ ss ⟨d.note ss, some ⟨definition, ps ++ ss, []⟩⟩ := by
  induction ss generalizing d ps
  case nil => simpa using Reads.nil
  case cons s ss hi =>
    rw [forall_mem_cons] at hs
    have ha := Adds.parameter (p := ⟨d, some ⟨definition, ps, []⟩⟩) rfl rfl hs.left
    simpa using Reads.cons ha (hi hs.right)

theorem reads_code {b : Block} (hs : ∀ s ∈ ss, s.IsCode) :
    Reads ⟨d, some ⟨definition, ps, bs ++ [b]⟩⟩ ss
      ⟨d.note ss, some ⟨definition, ps, bs ++ [{ b with body := b.body ++ ss }]⟩⟩ := by
  induction ss generalizing d b
  case nil => simpa using Reads.nil
  case cons s ss hi =>
    rw [forall_mem_cons] at hs
    have ha := Adds.code (p := ⟨d, some ⟨definition, ps, bs ++ [b]⟩⟩) rfl rfl hs.left.label
      hs.left.ending
    simpa [Block.push] using Reads.cons ha (hi hs.right)

theorem reads_blocks {new : List Block} (hs : ∀ b ∈ new, ∀ s ∈ b.body, s.IsCode) :
    Reads ⟨d, some ⟨definition, ps, bs⟩⟩ (new.flatMap Block.statements)
      ⟨d.note (new.flatMap Block.statements), some ⟨definition, ps, bs ++ new⟩⟩ := by
  induction new generalizing d bs
  case nil => simpa using Reads.nil
  case cons b new hi =>
    rw [forall_mem_cons] at hs
    have hl := Adds.label (p := ⟨d, some ⟨definition, ps, bs⟩⟩) (s := b.labelStatement) rfl
      (Statement.op?_new ..)
    have hb := Reads.cons hl (reads_code hs.left)
    have hid : b.labelStatement.resultId = some b.label := rfl
    simpa [Block.statements, hid] using hb.append (hi hs.right)

theorem reads_function {f : FunctionDraft} (hf : f.WellFormed) :
    Reads ⟨d, none⟩ f.statements ⟨d.placeFunction f, none⟩ := by
  have hs := Adds.start (p := ⟨d, none⟩) rfl hf.definition.right.right
  have hp := Reads.cons hs (reads_parameters fun s hs => (hf.parameters s hs).right.right)
  have hb := hp.append (reads_blocks hf.code)
  have he := hb.append (Adds.finish rfl hf.close.right.right).reads
  simpa [Draft.placeFunction, FunctionDraft.statements, OpenFunction.close] using he

theorem reads_functions {fs : List FunctionDraft} (hf : ∀ f ∈ fs, f.WellFormed) :
    Reads ⟨d, none⟩ (fs.flatMap FunctionDraft.statements) ⟨fs.foldl Draft.placeFunction d,
      none⟩ := by
  induction fs generalizing d
  case nil => exact .nil
  case cons f fs hi =>
    rw [forall_mem_cons] at hf
    rw [flatMap_cons]
    exact (reads_function hf.left).append (hi hf.right)

end Splitting

theorem FunctionDraft.WellFormed.of_mem_statements {f : FunctionDraft} {s : Statement}
    (h : f.WellFormed) (hs : s ∈ f.statements) : s.WellFormed ∧ s.Fits := by
  simp only [FunctionDraft.statements, mem_append, mem_cons, mem_flatMap, not_mem_nil, or_false]
    at hs
  obtain ((rfl | hs) | ⟨b, hb, hs⟩) | rfl := hs
  · exact ⟨h.definition.left, h.definition.right.left⟩
  · exact ⟨(h.parameters s hs).left, (h.parameters s hs).right.left⟩
  · rw [Block.statements, mem_cons] at hs
    cases hs
    case inl hl =>
      subst hl
      exact ⟨.new rfl rfl (show _ ≤ 2 by decide), show 2 < _ by decide⟩
    case inr hs => exact ⟨(h.code b hb s hs).toWellFormed, (h.code b hb s hs).fits⟩
  · exact ⟨h.close.left, h.close.right.left⟩

def Section.all : List Section :=
  [.capabilities, .extensions, .imports, .memoryModel, .entryPoints, .modes, .debug, .annotations,
    .globals]

namespace Draft

variable {d d' : Draft} {ss : List Statement} {fs : List FunctionDraft}

theorem declarations_eq (d : Draft) : d.declarations = Section.all.flatMap d.inSection := by
  simp [declarations, Section.all, inSection]

theorem mem_declarations_iff {s : Statement} : s ∈ d.declarations ↔ ∃ sec, s ∈ d.inSection sec := by
  have hall (sec : Section) : sec ∈ Section.all := by cases sec <;> simp [Section.all]
  simp [declarations_eq, hall]

theorem ext_inSection (hh : d.header = d'.header) (hs : ∀ sec, d.inSection sec = d'.inSection sec)
    (hf : d.functions = d'.functions) (ht : d.resultTypes = d'.resultTypes) : d = d' := by
  obtain ⟨⟩ := d
  obtain ⟨⟩ := d'
  simp only [header, Header.mk.injEq, true_and] at hh
  rw [mk.injEq]
  exact ⟨hh.left, hh.right.left, hh.right.right.left, hh.right.right.right, hs .capabilities,
    hs .extensions, hs .imports, hs .memoryModel, hs .entryPoints, hs .modes, hs .debug,
    hs .annotations,
    hs .globals, hf, ht⟩

@[simp]
theorem inSection_note (d : Draft) (ss : List Statement) (sec : Section) :
    (d.note ss).inSection sec = d.inSection sec := by
  induction ss generalizing d
  case nil => rfl
  case cons s ss hi => simp [hi]

@[simp]
theorem functions_note (d : Draft) (ss : List Statement) : (d.note ss).functions = d.functions := by
  induction ss generalizing d
  case nil => rfl
  case cons s ss hi => simp [hi]

theorem inSection_foldl_place (hs : ∀ s ∈ ss, s.section?.isSome) (sec : Section) :
    (ss.foldl place d).inSection sec = d.inSection sec ++ ss.filter (·.section? = some sec) := by
  induction ss generalizing d
  case nil => simp
  case cons s ss hi =>
    rw [forall_mem_cons] at hs
    obtain ⟨sec', hsec⟩ := Option.isSome_iff_exists.mp hs.left
    rw [foldl_cons, hi hs.right, place, hsec]
    by_cases h : sec' = sec <;> simp [h, hsec]

theorem functions_foldl_place (d : Draft) (ss : List Statement) :
    (ss.foldl place d).functions = d.functions := by
  induction ss generalizing d
  case nil => rfl
  case cons s ss hi => simp [hi, place]

theorem inSection_foldl_placeFunction (d : Draft) (fs : List FunctionDraft) (sec : Section) :
    (fs.foldl placeFunction d).inSection sec = d.inSection sec := by
  induction fs generalizing d
  case nil => rfl
  case cons f fs hi =>
    have hp : (d.placeFunction f).inSection sec = (d.note f.statements).inSection sec := by
      cases sec <;> rfl
    simp [hi, hp]

theorem functions_foldl_placeFunction (d : Draft) (fs : List FunctionDraft) :
    (fs.foldl placeFunction d).functions = d.functions ++ fs := by
  induction fs generalizing d
  case nil => simp
  case cons f fs hi => simp [hi, placeFunction, pushFunction]

theorem WellFormed.filter_declarations (h : d.WellFormed) (sec : Section) :
    d.declarations.filter (·.section? = some sec) = d.inSection sec := by
  have keep (sec' : Section) : (d.inSection sec').filter (·.section? = some sec)
      = if sec' = sec then d.inSection sec else [] := by
    split
    case isTrue heq =>
      subst heq
      exact filter_eq_self.mpr fun s hs => decide_eq_true (h.sections _ s hs).right
    case isFalse hne =>
      refine filter_eq_nil_iff.mpr fun s hs => ?_
      have hb : s.section? = some sec' := (h.sections sec' s hs).right
      simp [hb, hne]
  simp only [declarations_eq, filter_flatMap, keep]
  cases sec <;> simp [Section.all]

theorem WellFormed.section?_isSome (h : d.WellFormed) :
    ∀ s ∈ d.declarations, s.section?.isSome := by
  intro s hs
  have ⟨sec, hs⟩ := mem_declarations_iff.mp hs
  exact Option.isSome_iff_exists.mpr ⟨sec, (h.sections sec s hs).right⟩

theorem WellFormed.of_mem_statements {s : Statement} (h : d.WellFormed) (hs : s ∈ d.statements) :
    s.WellFormed := by
  rw [statements, mem_append, mem_flatMap] at hs
  cases hs
  case inl hs =>
    obtain ⟨sec, hs⟩ := mem_declarations_iff.mp hs
    exact (h.sections sec s hs).left
  case inr hs =>
    obtain ⟨f, hf, hs⟩ := hs
    exact ((h.functions f hf).of_mem_statements hs).left

theorem WellFormed.fits_of_mem_statements {s : Statement} (h : d.WellFormed)
    (he : ∀ e ∈ d.entryPoints, e.Fits) (hs : s ∈ d.statements) : s.Fits := by
  rw [statements, mem_append, mem_flatMap] at hs
  cases hs
  case inl hs =>
    obtain ⟨sec, hs⟩ := mem_declarations_iff.mp hs
    by_cases hsec : sec = .entryPoints
    case pos => exact he s (by simpa [hsec, inSection] using hs)
    case neg => exact h.fits sec hsec s hs
  case inr hs =>
    obtain ⟨f, hf, hs⟩ := hs
    exact ((h.functions f hf).of_mem_statements hs).right

theorem WellFormed.reads_statements (hw : d.WellFormed) (hs : d.Sound) (hx : d.Indexed) :
    Splitting.Reads ⟨.ofHeader d.header, none⟩ d.statements ⟨d, none⟩ := by
  have hr := (Splitting.reads_declarations (d := .ofHeader d.header) hw.section?_isSome).append
    (Splitting.reads_functions hw.functions)
  generalize hd : d.functions.foldl placeFunction (d.declarations.foldl place (.ofHeader d.header))
    = d' at hr
  have hsec (sec : Section) : d'.inSection sec = d.inSection sec := by
    have hnil : (ofHeader d.header).inSection sec = [] := by cases sec <;> rfl
    rw [← hd, inSection_foldl_placeFunction, inSection_foldl_place hw.section?_isSome,
      hw.filter_declarations, hnil, nil_append]
  have hf : d'.functions = d.functions := by
    rw [← hd, functions_foldl_placeFunction, functions_foldl_place]
    rfl
  have hst : d'.statements = d.statements := by
    rw [statements, declarations_eq, funext hsec, hf, ← declarations_eq, ← statements]
  have hd' : d'.Indexed := by
    refine hr.draft_indexed (fun s hs => hw.of_mem_statements hs) ?_
    rw [definitions, hst]
    exact hs.nodup
  have ht : d'.resultTypes = d.resultTypes := by
    refine Std.ExtTreeMap.ext_getElem? fun id => Option.ext fun type => ?_
    rw [hd' id type, hx id type, definitions, definitions, hst]
  obtain rfl : d' = d := ext_inSection hr.header hsec hf ht
  exact hr

theorem words_eq (d : Draft) :
    d.words = d.header.words ++ d.statements.flatMap Statement.words := by
  have hblock (b : Block) : b.words = b.statements.flatMap Statement.words := rfl
  have hfunction (f : FunctionDraft) : f.words = f.statements.flatMap Statement.words := by
    simp only [FunctionDraft.words, FunctionDraft.statements, funext hblock, flatMap_append,
      flatMap_cons, flatMap_assoc, flatMap_nil, append_nil, append_assoc]
  simp only [words, statements, funext hfunction, flatMap_append, flatMap_assoc, append_assoc]

theorem WellFormed.read_statements (hw : d.WellFormed) (hs : d.Sound)
    (he : ∀ e ∈ d.entryPoints, e.Fits) :
    ∃ b, Binary.read d.words = .ok b ∧ b.header = d.header
      ∧ b.instructions.toList = Binary.written 0 Header.length d.statements := by
  have hform : ∀ s ∈ d.statements, s.WellFormed ∧ s.Fits :=
    fun s hs => ⟨hw.of_mem_statements hs, hw.fits_of_mem_statements he hs⟩
  have hbelow : ∀ s ∈ d.statements, ∀ id ∈ s.resultId, id < d.header.bound :=
    fun s hst id hid => hs.below (id, s.resultType) (mem_definitions_iff.mpr ⟨s, hst, hid, rfl⟩)
  have hnodup : (d.statements.filterMap Statement.resultId).Nodup := by
    rw [← map_fst_flatMap_defines]
    exact hs.nodup
  obtain ⟨a, ha, hi⟩ := Binary.readFrom_flatMap_words Header.length (a := {}) .empty hform
    hbelow hnodup
  have hread : Binary.read d.words = .ok ⟨d.header, d.words, a.instructions, a.definitions⟩ := by
    rw [Binary.read, words_eq, Header.read?_words rfl]
    simp only [drop_left' (show d.header.words.length = Header.length from rfl)]
    simp [bind, Except.bind, ha, pure, Except.pure]
  exact ⟨_, hread, rfl, hi⟩

theorem WellFormed.read_words (hw : d.WellFormed) (hs : d.Sound) (hx : d.Indexed)
    (he : ∀ e ∈ d.entryPoints, e.Fits) :
    ∃ b d', Binary.read d.words = .ok b ∧ ofBinary b = .ok d' ∧ d'.forget = d.forget := by
  have hform : ∀ s ∈ d.statements, s.WellFormed ∧ s.Fits :=
    fun s hs => ⟨hw.of_mem_statements hs, hw.fits_of_mem_statements he hs⟩
  obtain ⟨b, hread, hh, hi⟩ := hw.read_statements hs he
  have hts : d.statements.map Statement.forget
      = (b.instructions.toList.map Statement.ofInstruction).map Statement.forget := by
    rw [hi, Binary.forget_written _ _ hform]
  obtain ⟨⟨d', current⟩, hr, hp⟩ :=
    (hw.reads_statements hs hx).forget (q := ⟨.ofHeader b.header, none⟩) (by rw [hh]) hts
  have hcur : current = none := by
    simpa [Splitting.forget] using (congrArg Splitting.current hp).symm
  subst hcur
  exact ⟨b, d', hread, ofBinary_eq_ok_iff.mpr hr, (congrArg Splitting.draft hp).symm⟩

end Draft
end Shader
