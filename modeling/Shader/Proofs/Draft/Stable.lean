import Shader.Instrument.Pipeline
import Shader.Proofs.Analysis.Rendered

namespace Shader

open List

-- `sorted` has the elements of `l` in the order of their keys, and those with one key as they were.
structure StablySorts {α : Type} (key : α → Nat) (l sorted : List α) : Prop where
  perm    : sorted ~ l
  ordered : sorted.Pairwise (key · ≤ key ·)
  stable  : ∀ k, sorted.filter (key · = k) = l.filter (key · = k)

theorem stablySorts_mergeSort {α : Type} (key : α → Nat) (l : List α) :
    StablySorts key l (l.mergeSort (key · ≤ key ·)) where
  perm := mergeSort_perm ..
  ordered := by simpa using pairwise_mergeSort (le_trans_key key) (le_total_key key) l
  stable := filter_mergeSort key l

namespace FunctionDraft

theorem statements_forget (f : FunctionDraft) :
    f.forget.statements = f.statements.map Statement.forget := by
  have hblock (b : Block) : b.forget.statements = b.statements.map Statement.forget := rfl
  simp [statements, forget, map_flatMap, flatMap_map, hblock]

theorem flatMap_statements_forget (fs : List FunctionDraft) :
    (fs.map forget).flatMap statements = (fs.flatMap statements).map Statement.forget := by
  rw [flatMap_map, map_flatMap]
  exact flatMap_congr fun f _ => f.statements_forget

end FunctionDraft

namespace Draft

variable {b b' : Binary} {d d' : Draft} {words : List Word}

theorem statements_forget (d : Draft) :
    d.forget.statements = d.statements.map Statement.forget := by
  simp only [statements, declarations, forget, map_append, FunctionDraft.flatMap_statements_forget]

theorem words_forget (d : Draft) : d.forget.words = d.words := by
  rw [words_eq, words_eq, statements_forget, flatMap_map]
  rfl

theorem fits_of_ofBinary (h : ofBinary b = .ok d) (hb : b.Valid) : ∀ e ∈ d.entryPoints, e.Fits := by
  intro e he
  have he : e ∈ d.inSection .entryPoints := he
  rw [inSection_of_ofBinary h hb] at he
  obtain ⟨x, hx, rfl⟩ := mem_map.mp he
  exact (hb.framed x.2 (mem_of_mem_ranked (mem_of_mem_filter hx))).fits

theorem mem_written {ss : List Statement} {i : Instruction} (index offset : Nat)
    (h : i ∈ Binary.written index offset ss) :
    ∃ s ∈ ss, ∃ index offset, i = s.instruction index offset := by
  induction ss generalizing index offset
  case nil => simp [Binary.written] at h
  case cons s ss hi =>
    obtain rfl | h := mem_cons.mp h
    · exact ⟨s, mem_cons_self, index, offset, rfl⟩
    · obtain ⟨t, ht, hi⟩ := hi _ _ h
      exact ⟨t, mem_cons_of_mem _ ht, hi⟩

theorem exists_mem_written {ss : List Statement} {s : Statement} (index offset : Nat) (h : s ∈ ss) :
    ∃ index' offset', s.instruction index' offset' ∈ Binary.written index offset ss := by
  induction ss generalizing index offset
  case nil => simp at h
  case cons t ss hi =>
    obtain rfl | h := mem_cons.mp h
    · exact ⟨index, offset, mem_cons_self⟩
    · obtain ⟨index', offset', hi⟩ := hi (index + 1) (offset + t.length) h
      exact ⟨index', offset', mem_cons_of_mem _ hi⟩

theorem renders_kept (hb : b.Valid) {x : Nat × Instruction}
    (hx : x ∈ ranked Instruction.op? false b.instructions.toList)
    (hs : (kept (x.1, .ofInstruction x.2)).WellFormed ∧ (kept (x.1, .ofInstruction x.2)).Fits)
    (index offset : Nat) :
    b.Renders x.2 ((kept (x.1, .ofInstruction x.2)).instruction index offset) := by
  obtain ⟨rank, i⟩ := x
  have hf := hb.framed i (mem_of_mem_ranked hx)
  by_cases hcut : rank = functionRank ∧ i.op? = some .label ∧ i.length ≠ 2
  case pos =>
    obtain ⟨rfl, hl, hlen⟩ := hcut
    have hop := Statement.op?_instruction hs.left hs.right index offset
    have hid := Statement.resultId?_instruction hs.left hs.right index offset
    simp only [kept, if_pos] at hop hid ⊢
    refine .cut ⟨hx, hl, hlen⟩ ?_ ?_
    · rw [hop, Statement.op?_written]
      exact hl
    · rw [hid, Statement.resultId_written]
      rfl
  case neg => exact .same (hf.words_kept fun hr hl => by_contra fun hlen => hcut ⟨hr, hl, hlen⟩)

theorem map_rendering_inFunctions (h : ofBinary b = .ok d) (hb : b.Valid) :
    b.inFunctions.map Instruction.rendering
      = (d.functions.flatMap FunctionDraft.statements).map Statement.forget := by
  rw [functions_of_ofBinary h hb, Binary.inFunctions, map_map, map_map]
  rfl

theorem rewritten_of_ofBinary (h : ofBinary b = .ok d) (hb : b.Valid) :
    ∃ b' d', Binary.read d.words = .ok b'
      ∧ ofBinary b' = .ok d' ∧ d'.words = d.words ∧ b.Rewritten b' := by
  have hw := ofBinary_wellFormed h hb
  have hs := ofBinary_sound h hb
  have he := fits_of_ofBinary h hb
  obtain ⟨b', d', hread, hd', hforget⟩ := hw.read_words hs (ofBinary_indexed h hb) he
  obtain ⟨_, hread', _, hi⟩ := hw.read_statements hs he
  cases hread.symm.trans hread'
  have hb' := Binary.read_valid hread
  have hform : ∀ s ∈ d.statements, s.WellFormed ∧ s.Fits :=
    fun s hs => ⟨hw.of_mem_statements hs, hw.fits_of_mem_statements he hs⟩
  -- The statements are the instructions in the order of their sections.
  have hst := statements_of_ofBinary h hb
  refine ⟨b', d', hread, hd', ?_, ?_, ?_, ?_⟩
  case refine_1 => rw [← words_forget d', hforget, words_forget]
  case refine_2 =>
    intro i' hi'
    rw [hi] at hi'
    obtain ⟨s, hs, index, offset, rfl⟩ := mem_written _ _ hi'
    have hsform := hform s hs
    rw [hst] at hs
    obtain ⟨x, hx, rfl⟩ := mem_map.mp hs
    rw [mem_mergeSort] at hx
    exact ⟨x.2, mem_of_mem_ranked hx, renders_kept hb hx hsform index offset⟩
  case refine_3 =>
    intro i hmem
    rw [← map_snd_ranked Instruction.op? false b.instructions.toList] at hmem
    obtain ⟨x, hx, rfl⟩ := mem_map.mp hmem
    have hs : kept (x.1, .ofInstruction x.2) ∈ d.statements := by
      rw [hst]
      exact mem_map_of_mem (mem_mergeSort.mpr hx)
    obtain ⟨index, offset, hi'⟩ := exists_mem_written 0 Header.length hs
    exact ⟨_, hi ▸ hi', renders_kept hb hx (hform _ hs) index offset⟩
  case refine_4 =>
    rw [map_rendering_inFunctions h hb, map_rendering_inFunctions hd' hb',
      ← FunctionDraft.flatMap_statements_forget, ← FunctionDraft.flatMap_statements_forget]
    exact congrArg (·.functions.flatMap FunctionDraft.statements) hforget

end Draft

theorem Header.nativeOrder_of_head? {words : List Word} (h : words.head? = some magicNumber) :
    nativeOrder words = words := by
  refine if_neg ?_
  rw [h]
  decide

namespace Binary

variable {b : Binary} {words : List Word}

theorem words_of_read (h : read words = .ok b) :
    b.header.words ++ b.instructions.toList.flatMap Instruction.words = words
      ∧ b.header.magic = Header.magicNumber := by
  obtain ⟨frames, hf⟩ := framing_of_read h
  obtain ⟨b', hb', hr⟩ := records_of_framing hf
  cases h.symm.trans hb'
  constructor
  case left => rw [flatMap_def, hr.instructions, hr.header, ← hf.split, take_append_drop]
  case right =>
    have hhead := congrArg (·[0]?) hr.header
    simpa [Header.words, Header.length, hf.magic] using hhead

theorem ofWords_of_head? (h : words.head? = some Header.magicNumber) :
    ofWords words = read words := by
  rw [ofWords, Header.nativeOrder_of_head? h]

end Binary

namespace Draft

variable {b : Binary} {d : Draft} {words : List Word}

theorem ofWords_eq_ok_iff : ofWords words = .ok d ↔
    ∃ b, Binary.ofWords words = .ok b ∧ Succeeds (Module.ofBinary b) ∧ ofBinary b = .ok d := by
  constructor
  case mp =>
    intro h
    obtain ⟨m, hm, hd⟩ := ok_of_bind h
    obtain ⟨b, hb, hm⟩ := ok_of_bind (ok_of_mapError hm)
    have hm := ok_of_mapError hm
    exact ⟨b, ok_of_mapError hb, ⟨m, hm⟩, Module.toBinary_of_ofBinary hm ▸ hd⟩
  case mpr =>
    rintro ⟨b, hb, ⟨m, hm⟩, hd⟩
    rw [← Module.toBinary_of_ofBinary hm] at hd
    simp [ofWords, load, Module.ofWords, Module.analyse, hb, hm, Except.mapError, bind,
      Except.bind, hd]

theorem fault_of_ofWords {e : EditError} (hb : Binary.ofWords words = .ok b)
    (hd : ofBinary b = .ok d) (h : ofWords words = .error e) : ∃ f, e = .fault f := by
  unfold ofWords load at h
  rw [Module.ofWords_eq hb] at h
  cases hm : Module.ofBinary b <;> rw [hm] at h
  case error f =>
    cases h
    exact ⟨f, rfl⟩
  case ok m =>
    have hsplit : ofBinary m.toBinary = .error e := h
    rw [Module.toBinary_of_ofBinary hm, hd] at hsplit
    cases hsplit

theorem sorts_of_ofWords (h : ofWords words = .ok d) : ∃ b, Binary.ofWords words = .ok b
    ∧ (words.head? = some Header.magicNumber → (∀ i, ¬b.Cuts i) →
      (∃ sorted, StablySorts Prod.fst (ranked Instruction.op? false b.instructions.toList) sorted
        ∧ d.words = words.take Header.length ++ sorted.flatMap (·.2.words))
      ∧ ((ranked Instruction.op? false b.instructions.toList).Pairwise (·.1 ≤ ·.1) →
        d.words = words))
    ∧ (∃ b' d', Binary.ofWords d.words = .ok b' ∧ ofBinary b' = .ok d' ∧ d'.words = d.words)
    ∧ ((∀ i ∈ b.instructions.toList, i.op? = some .typeSampledImage → ∀ l, b.Cuts l →
      i.word? 2 ≠ l.resultId?) →
      ∃ d', ofWords d.words = .ok d' ∧ d'.words = d.words)
    ∧ ∀ e, ofWords d.words = .error e → ∃ f, e = .fault f := by
  obtain ⟨b, hb, hm, hd⟩ := ofWords_eq_ok_iff.mp h
  have hv : b.Valid := Binary.read_valid hb
  obtain ⟨b', d', hread, hd', hwords, hr⟩ := rewritten_of_ofBinary hd hv
  have hb' : Binary.ofWords d.words = .ok b' := by rwa [Binary.ofWords_of_head? rfl]
  refine ⟨b, hb, fun hhead hcut => ?_, ⟨b', d', hb', hd', hwords⟩,
    fun hsampled => ⟨d', ?_, hwords⟩, fun e he => fault_of_ofWords hb' hd' he⟩
  case refine_1 =>
    rw [Binary.ofWords_of_head? hhead] at hb
    obtain ⟨hall, hmagic⟩ := Binary.words_of_read hb
    have hsort := words_of_ofBinary hd hv hmagic fun x hx hrank hl =>
      by_contra fun hlen => hcut x.2 ⟨hrank ▸ hx, hl, hlen⟩
    have htake : words.take Header.length = b.header.words := by
      rw [← hall]
      exact take_left' rfl
    constructor
    case left =>
      refine ⟨_, stablySorts_mergeSort Prod.fst _, ?_⟩
      rw [hsort, htake, layout, flatMap_map]
    case right =>
      intro hsorted
      rw [hsort, layout, mergeSort_of_pairwise (by simpa using hsorted), map_snd_ranked, hall]
  case refine_2 =>
    have hx := Binary.indexed_of_read hb
    exact ofWords_eq_ok_iff.mpr
      ⟨b', hb', Module.ofBinary_of_rewritten hr hx (Binary.indexed_of_read hread) hsampled hm, hd'⟩

-- A function between the types and the capability it needs.
def capabilityLast : List Word :=
  [0x07230203, 0x00010500, 0, 5, 0, 0x20013, 1, 0x30021, 2, 1,
   0x50036, 1, 3, 0, 2, 0x200F8, 4, 0x100FD, 0x10038, 0x20011, 1]

theorem sorts_of_ofWords_capabilityLast : ∃ b d d' sorted, Binary.ofWords capabilityLast = .ok b
    ∧ ofWords capabilityLast = .ok d ∧ (∀ i, ¬b.Cuts i)
    ∧ StablySorts Prod.fst (ranked Instruction.op? false b.instructions.toList) sorted
    ∧ d.words = capabilityLast.take Header.length ++ sorted.flatMap (·.2.words)
    ∧ d.words = [0x07230203, 0x00010500, 0, 5, 0, 0x20011, 1, 0x20013, 1, 0x30021, 2, 1,
      0x50036, 1, 3, 0, 2, 0x200F8, 4, 0x100FD, 0x10038]
    ∧ ofWords d.words = .ok d' ∧ d'.words = d.words := by
  have hw : ((ofWords capabilityLast).map fun d => decide (
      d.words = [0x07230203, 0x00010500, 0, 5, 0, 0x20011, 1, 0x20013, 1, 0x30021, 2, 1,
        0x50036, 1, 3, 0, 2, 0x200F8, 4, 0x100FD, 0x10038])) = .ok true := by
    decide +kernel
  have hlabels : ((Binary.ofWords capabilityLast).map fun b => decide (
      ∀ i ∈ b.instructions.toList, i.op? = some .label → i.length = 2)) = .ok true := by
    decide +kernel
  obtain ⟨d, h, hw⟩ := exists_ok_of_decide hw
  obtain ⟨b, hb, hlabels⟩ := exists_ok_of_decide hlabels
  obtain ⟨b', hb', hsorts, _, hagain, _⟩ := sorts_of_ofWords h
  obtain rfl : b = b' := Except.ok.inj (hb.symm.trans hb')
  have hcut (i : Instruction) : ¬b.Cuts i :=
    fun hc => hc.longer (hlabels i (mem_of_mem_ranked hc.inside) hc.label)
  obtain ⟨⟨sorted, hs, hwords⟩, _⟩ := hsorts rfl hcut
  obtain ⟨d', hd', hwords'⟩ := hagain fun _ _ _ l hc => absurd hc (hcut l)
  exact ⟨b, d, d', sorted, hb, h, hcut, hs, hwords, hw, hd', hwords'⟩

-- A variable that is a sampled image of a type which is a label with nine words.
def longLabel : List Word :=
  [0x07230203, 0x00010500, 0, 9, 0, 0x4000F, 5, 1, 0, 0x3001B, 3, 8, 0x40020, 4, 0, 3,
   0x4003B, 4, 5, 0, 0x50036, 2, 1, 0, 2, 0x900F8, 8, 0, 0, 0, 0, 0, 0, 0, 0x4003D, 3, 6, 5,
   0x100FD, 0x10038]

-- The same with the label cut.
def cutLabel : List Word :=
  [0x07230203, 0x00010500, 0, 9, 0, 0x4000F, 5, 1, 0, 0x3001B, 3, 8, 0x40020, 4, 0, 3,
   0x4003B, 4, 5, 0, 0x50036, 2, 1, 0, 2, 0x200F8, 8, 0x4003D, 3, 6, 5, 0x100FD, 0x10038]

-- Once the label is cut, the analyses look for words of an image type that are not there.
theorem ofWords_words_longLabel : ∃ d, ofWords longLabel = .ok d
    ∧ (∃ f, ofWords d.words = .error (.fault f))
    ∧ ¬∃ d', ofWords d.words = .ok d' ∧ d'.words = d.words := by
  have hfirst : ((ofWords longLabel).map fun d => decide (d.words = cutLabel)) = .ok true := by
    decide +kernel
  have hsecond : (ofWords cutLabel).map Draft.words = .error (.fault (.pastEnd 5 2)) := by
    decide +kernel
  obtain ⟨d, h, hwords⟩ := exists_ok_of_decide hfirst
  have hfault := error_of_map hsecond
  rw [← hwords] at hfault
  refine ⟨d, h, ⟨_, hfault⟩, ?_⟩
  rintro ⟨d', hd', _⟩
  rw [hd'] at hfault
  cases hfault

end Draft
end Shader
