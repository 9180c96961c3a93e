import Shader.Proofs.Instrument.EntryPoints
import Shader.Proofs.Instrument.Requests

namespace Shader

open List

namespace Draft

variable {d : Draft}

theorem WellFormed.functionIds_sublist (hw : d.WellFormed) : d.functionIds <+ d.ids := by
  have hfunctions : ∀ fs : List FunctionDraft, (∀ f ∈ fs, f.WellFormed) →
      fs.map FunctionDraft.id
        <+ (fs.flatMap FunctionDraft.statements).filterMap Statement.resultId := by
    intro fs hfs
    induction fs
    case nil => exact .slnil
    case cons f fs hi =>
      rw [forall_mem_cons] at hfs
      rw [map_cons, flatMap_cons, filterMap_append, FunctionDraft.statements, cons_append,
        cons_append, filterMap_cons_some hfs.left.resultId, cons_append]
      exact ((hi hfs.right).trans (sublist_append_right ..)).cons_cons f.id
  rw [ids, statements, filterMap_append]
  exact (hfunctions d.functions hw.functions).trans (sublist_append_right ..)

theorem WellFormed.filter_id_eq (hw : d.WellFormed) (hs : d.Sound) {f : FunctionDraft}
    (hf : f ∈ d.functions) :
    d.functions.filter (·.id = f.id) = [f] := by
  have hnodup : d.functionIds.Nodup := by
    refine hw.functionIds_sublist.nodup ?_
    rw [← d.map_fst_definitions]
    exact hs.nodup
  obtain ⟨before, after, heq⟩ := append_of_mem hf
  rw [functionIds, heq, map_append, map_cons, nodup_middle, nodup_cons, mem_append, not_or]
    at hnodup
  have hother {fs : List FunctionDraft} (hn : f.id ∉ fs.map FunctionDraft.id) :
      fs.filter (·.id = f.id) = [] :=
    filter_eq_nil_iff.mpr fun g hg hid => hn (of_decide_eq_true hid ▸ mem_map_of_mem hg)
  rw [heq, filter_append, filter_cons_of_pos (by simp), hother hnodup.left.left,
    hother hnodup.left.right, nil_append]

theorem WellFormed.filter_definition_eq (hw : d.WellFormed) (hs : d.Sound) {f : FunctionDraft}
    (hf : f ∈ d.functions) :
    d.statements.filter (·.resultId = some f.id) = [f.definition] := by
  have hids : d.ids.Nodup := d.map_fst_definitions ▸ hs.nodup
  refine filter_resultId_eq hids ?_ (hw.functions f hf).resultId
  exact mem_append_right _ (mem_flatMap.mpr ⟨f, hf, by simp [FunctionDraft.statements]⟩)

theorem WellFormed.read_function (hw : d.WellFormed) (hs : d.Sound) (hx : d.Indexed)
    (he : ∀ e ∈ d.entryPoints, e.Fits) {f : FunctionDraft} (hf : f ∈ d.functions) :
    ∃ b d', Binary.read d.words = .ok b ∧ ofBinary b = .ok d'
      ∧ (b.instructions.toList.filter (·.resultId? = some f.id)).map
        (fun i => (Statement.ofInstruction i).forget) = [f.definition.forget]
      ∧ (d'.functions.filter (·.id = f.id)).map FunctionDraft.forget = [f.forget] := by
  obtain ⟨b, hread, _, hi⟩ := hw.read_statements hs he
  obtain ⟨b', d', hread', hd', hforget⟩ := hw.read_words hs hx he
  obtain rfl : b = b' := Except.ok.inj (hread.symm.trans hread')
  refine ⟨b, d', hread, hd', ?_, ?_⟩
  · have hwritten := Binary.forget_written 0 Header.length fun s hst =>
      ⟨hw.of_mem_statements hst, hw.fits_of_mem_statements he hst⟩
    rw [← hi, map_map] at hwritten
    calc (b.instructions.toList.filter (·.resultId? = some f.id)).map
          (fun i => (Statement.ofInstruction i).forget)
      _ = (b.instructions.toList.map (Statement.forget ∘ Statement.ofInstruction)).filter
          (·.resultId = some f.id) := by
        rw [filter_map]
        rfl
      _ = (d.statements.filter (·.resultId = some f.id)).map Statement.forget := by
        rw [hwritten, filter_map]
        rfl
      _ = [f.definition.forget] := by rw [hw.filter_definition_eq hs hf, map_singleton]
  · have hfunctions : d'.functions.map FunctionDraft.forget
        = d.functions.map FunctionDraft.forget :=
      congrArg Draft.functions hforget
    calc (d'.functions.filter (·.id = f.id)).map FunctionDraft.forget
      _ = (d'.functions.map FunctionDraft.forget).filter (·.id = f.id) := by
        rw [filter_map]
        rfl
      _ = (d.functions.filter (·.id = f.id)).map FunctionDraft.forget := by
        rw [hfunctions, filter_map]
        rfl
      _ = [f.forget] := by rw [hw.filter_id_eq hs hf, map_singleton]

end Draft

-- The function `f` of the helper that was requested is linked, and `s` says what its ids became.
-- Functions may have been added since then.
structure Supplied (library : String → Option (List Word)) (r : HelperRequest) (d : Draft)
    (f : FunctionDraft) (s : Id → Id) : Prop where
  linked : ∃ words m h kept host linked, library r.name = some words ∧ Module.ofWords words = .ok m
    ∧ Draft.ofBinary m.toBinary = .ok h ∧ h.findFunction? r.name = some f.id ∧ f ∈ h.functions
    ∧ LinkedBy s kept h host linked ∧ linked.functions <+: d.functions
  wellFormed : f.WellFormed
  callee : s f.id = r.function

namespace Supplied

variable {library : String → Option (List Word)} {r : HelperRequest} {d d' : Draft}
  {f : FunctionDraft} {s : Id → Id}

theorem mono (h : Supplied library r d f s) (hd : d.functions <+: d'.functions) :
    Supplied library r d' f s := by
  obtain ⟨words, m, helper, kept, host, linked, hwords, hm, hh, hf, hmem, hl, hp⟩ := h.linked
  exact ⟨⟨words, m, helper, kept, host, linked, hwords, hm, hh, hf, hmem, hl, hp.trans hd⟩,
    h.wellFormed, h.callee⟩

theorem id_eq (h : Supplied library r d f s) : (f.rename s).id = r.function := by
  rw [h.wellFormed.id_rename, h.callee]

theorem mem (h : Supplied library r d f s) : f.rename s ∈ d.functions := by
  obtain ⟨_, _, _, _, _, _, _, _, _, _, hmem, hl, hp⟩ := h.linked
  refine hp.subset ?_
  rw [hl.functions]
  exact mem_append_right _ (mem_map_of_mem hmem)

end Supplied

variable {base : Opening} {w : Workspace}

theorem Instrumenting.linkRequest_supplies {library : String → Option (List Word)}
    {r : HelperRequest} {held : List Definition} (hb : base.Sound)
    (h : Ledger base w.draft ((r.function, none) :: held)) :
    Leads (linkRequest library r) w
      (fun _ w' => (∃ lost : List Id, Ledger base w'.draft (lost.map (·, none) ++ held))
      ∧ w.draft.functions <+: w'.draft.functions ∧ w.draft.Lists w'.draft
      ∧ ∃ f s, Supplied library r w'.draft f s) fun _ => True := by
  have hs := h.sound hb
  have hlt : r.function < w.draft.bound := h.lt_bound hb (mem_append_right _ mem_cons_self)
  have hn : r.function ∉ w.draft.ids := by
    have hnodup := h.nodup hb
    rw [map_append, map_cons, nodup_middle, nodup_cons, mem_append, not_or,
      Draft.map_fst_definitions] at hnodup
    exact hnodup.left.left
  refine (linkRequest_leads hlt).mono (fun _ w' hw => ?_) fun _ _ => trivial
  obtain ⟨_, words, m, helper, hwords, hm, hh, function, s, kept, found, hf, hfunction, hl⟩ := hw
  have hv := Binary.read_valid (Module.read_of_ofWords hm)
  have hw := Draft.ofBinary_wellFormed hh hv
  have hlinked := hl.linkedBy hw (Draft.ofBinary_sound hh hv).nodup hs hn
  obtain ⟨f, hmem, hid⟩ := Draft.findFunction?_spec hw hf
  have hfw := hw.functions f hmem
  obtain rfl : f.id = function := Option.some.inj (hfw.resultId.symm.trans hid)
  refine ⟨hl.ledger h, ⟨_, hlinked.functions.symm⟩, hl.lists, f, s.image, ?_, hfw,
    Renaming.image_of_getElem? hfunction⟩
  exact ⟨words, m, helper, kept, w.draft, w'.draft, hwords, hm, hh, hf, hmem, hlinked, prefix_rfl⟩

namespace Pipeline

variable {p p₀ : Pipeline}

theorem linkHelpers_supplies (library : String → Option (List Word)) {rest : List Definition}
    (hb : base.Sound) (h : w.Tracked base rest) :
    Leads (linkHelpers library) w (fun _ w' => w.draft.functions <+: w'.draft.functions
      ∧ w.draft.Lists w'.draft
      ∧ ∀ r ∈ w.requests, ∃ f s, Supplied library r w'.draft f s) fun _ => True := by
  refine .bind <| .get <| .bind <| .modify ?_
  refine Leads.weaken (Leads.forM (fun left w' =>
    (∃ held, Ledger base w'.draft (left.map (fun r => (r.function, none)) ++ held))
      ∧ w.draft.functions <+: w'.draft.functions ∧ w.draft.Lists w'.draft
      ∧ ∀ r ∈ w.requests, r ∈ left ∨ ∃ f s, Supplied library r w'.draft f s)
    (fun r left w₁ ⟨⟨held, hledger⟩, hkept, hlists, hsupplied⟩ => ?_)
    ⟨⟨rest, h⟩, prefix_rfl, .refl _, fun _ hr => .inl hr⟩) fun _ w' ⟨_, hkept, hlists, hsupplied⟩ =>
      ⟨hkept, hlists, fun r hr => (hsupplied r hr).resolve_left not_mem_nil⟩
  refine (Instrumenting.linkRequest_supplies hb hledger).weaken
    fun _ w₂ ⟨⟨lost, hl⟩, hp, hlists', hnew⟩ => ?_
  refine ⟨⟨_, hl.perm (perm_append_comm_assoc ..)⟩, hkept.trans hp, hlists.trans hlists',
    fun r' hr' => ?_⟩
  obtain hleft | ⟨f, s, hold⟩ := hsupplied r' hr'
  · obtain rfl | hleft := mem_cons.mp hleft
    · exact .inr hnew
    · exact .inl hleft
  · exact .inr ⟨f, s, hold.mono hp⟩

theorem Succeeded.supplies {words : List Word} {library : String → Option (List Word)}
    (h : new words = .ok p₀) (hp : Succeeded p₀ p) (hl : (p.link library).1 = .ok ()) :
    p.draft.functions <+: (p.link library).2.draft.functions
      ∧ p.draft.Lists (p.link library).2.draft
      ∧ ∀ r ∈ p.requests, ∃ f s, Supplied library r (p.link library).2.draft f s := by
  obtain ⟨b, hread, hd, hr⟩ := new_spec h
  have hb := opening_sound hd (Binary.read_valid hread)
  obtain ⟨lost, ht⟩ := hp.tracked hb (tracked_opening hr)
  exact step_ok (linkHelpers_supplies library hb ht) hl

theorem instrument_eq_ok_iff {words out : List Word} {s : Settings}
    {library : String → Option (List Word)} :
    instrument words s library = .ok out ↔ ∃ p₀ count, new words = .ok p₀ ∧ (p₀.run s).1 = .ok count
      ∧ ((p₀.run s).2.link library).1 = .ok () ∧ out = ((p₀.run s).2.link library).2.words := by
  constructor
  case mp =>
    intro h
    obtain ⟨p₀, hp₀, h⟩ := ok_of_bind h
    obtain ⟨count, hcount, h⟩ := ok_of_bind h
    obtain ⟨_, hlink, h⟩ := ok_of_bind h
    cases h
    exact ⟨p₀, count, hp₀, hcount, hlink, rfl⟩
  case mpr =>
    rintro ⟨p₀, count, hp₀, hcount, hlink, rfl⟩
    simp only [instrument, hp₀, hcount, hlink, bind, Except.bind]
    rfl

theorem eq_of_function_eq {rest : List Definition} (hb : base.Sound) (h : w.Tracked base rest)
    {r r' : HelperRequest} (hr : r ∈ w.requests) (hr' : r' ∈ w.requests)
    (heq : r'.function = r.function) : r' = r := by
  have hnodup := h.nodup hb
  rw [map_append, map_append, Workspace.pending, map_map] at hnodup
  exact inj_on_of_nodup_map hnodup.of_append_right.of_append_left hr' hr heq

theorem addedCalls_eq {n : Nat} {w' : Workspace} (hn : n = w.draft.functions.length)
    (hp : w.draft.functions <+: w'.draft.functions) :
    w'.addedCalls n = w.draft.functions.flatMap FunctionDraft.addedCalls := by
  obtain ⟨more, heq⟩ := hp
  rw [Workspace.addedCalls, ← heq, take_left' hn.symm]

-- Entry points list the variables of the helpers. One that grows past 65535 words has a length that
-- does not fit into its half of a word, and then nothing can be read back.
theorem callee_of_instrument {words out : List Word} {s : Settings}
    {library : String → Option (List Word)} (h : instrument words s library = .ok out) :
    ∃ p₀ count p₁ p, new words = .ok p₀ ∧ p₀.run s = (.ok count, p₁)
      ∧ p₁.link library = (.ok (), p) ∧ out = p.words
      ∧ (p.addedCalls p₀.draft.functions.length).length = count
      ∧ p₁.draft.entryPoints = p₀.draft.entryPoints ∧ p₁.draft.Lists p.draft
      ∧ ((∃ b d, Binary.read out = .ok b ∧ Draft.ofBinary b = .ok d ∧ d.forget = p.draft.forget)
        ↔ ∀ e ∈ p.draft.entryPoints, e.length ≤ 65535)
      ∧ ∀ call ∈ p.addedCalls p₀.draft.functions.length,
        ∃ r ∈ p₁.requests, call.operands.head? = some r.function
        ∧ (∀ r' ∈ p₁.requests, r'.function = r.function → r' = r)
        ∧ ∃ f σ, Supplied library r p.draft f σ
          ∧ p.draft.functions.filter (·.id = r.function) = [f.rename σ]
          ∧ p.draft.statements.filter (·.resultId = some r.function) = [(f.rename σ).definition]
          ∧ (f.rename σ).definition.is .function
          ∧ ((∀ e ∈ p.draft.entryPoints, e.length ≤ 65535) →
            ∃ b d, Binary.read out = .ok b ∧ Draft.ofBinary b = .ok d
            ∧ (b.instructions.toList.filter (·.resultId? = some r.function)).map
                (fun i => (Statement.ofInstruction i).forget) = [(f.rename σ).definition]
            ∧ (d.functions.filter (·.id = r.function)).map FunctionDraft.forget
              = [(f.rename σ).forget]) := by
  obtain ⟨p₀, count, hp₀, hrun, hlink, rfl⟩ := instrument_eq_ok_iff.mp h
  have hrun' : Succeeded p₀ (p₀.run s).2 := .run s .start hrun
  have hlink' : Succeeded p₀ ((p₀.run s).2.link library).2 := .link library hrun' hlink
  have hentries := (run_recodes hrun).entryPoints
  have hadapts : p₀.toWorkspace.Adapts (p₀.run s).2.toWorkspace count :=
    step_ok (runChecks_adapts p₀.analysis s (original_of_new hp₀)) hrun
  obtain ⟨hkept, hlists, hsupplied⟩ := hrun'.supplies hp₀ hlink
  generalize hp : ((p₀.run s).2.link library).2 = p at *
  generalize hp₁ : (p₀.run s).2 = p₁ at *
  obtain ⟨b₀, hread, hd, hr₀⟩ := new_spec hp₀
  have hb := opening_sound hd (Binary.read_valid hread)
  obtain ⟨lost, ht⟩ := hrun'.tracked hb (tracked_opening hr₀)
  -- Linking appends functions only, so the added calls are those of the run.
  have hcalls := addedCalls_eq hadapts.functions.length_eq hkept
  obtain ⟨hw, hs, hx⟩ := hlink'.readable hp₀
  refine ⟨p₀, count, p₁, p, hp₀, Prod.ext hrun hp₁, Prod.ext hlink hp, rfl,
    by rw [hcalls, hadapts.added], hentries, hlists, hw.read_words_iff hs hx, ?_⟩
  intro call hcall
  obtain ⟨r, hr, hcallee⟩ := hadapts.calls call (hcalls ▸ hcall)
  obtain ⟨f, σ, hf⟩ := hsupplied r hr
  refine ⟨r, hr, hcallee, fun r' hr' => eq_of_function_eq hb ht hr hr', f, σ, hf, ?_⟩
  have hfunction := hw.functions _ hf.mem
  rw [← hf.id_eq]
  refine ⟨hw.filter_id_eq hs hf.mem, hw.filter_definition_eq hs hf.mem, ?_, fun he => ?_⟩
  · simp [Statement.is, hfunction.definition.right.right]
  · exact hw.read_function hs hx (fun e hmem => Nat.lt_succ_of_le (he e hmem)) hf.mem

theorem callee_of_instrument_loadsThenQueries :
    ∃ out p₀ p₁ p, instrument loadsThenQueries { bufferAddress := true, rayQuery := true }
        (fun _ => some permit) = .ok out
      ∧ new loadsThenQueries = .ok p₀
      ∧ p₀.run { bufferAddress := true, rayQuery := true } = (.ok 2, p₁)
      ∧ p₁.link (fun _ => some permit) = (.ok (), p) ∧ out = p.words
      ∧ p₁.requests = [⟨BufferAddress.helper, 24⟩, ⟨RayQuery.helper, 32⟩]
      ∧ (p.addedCalls p₀.draft.functions.length).map (·.operands.head?) = [some 24, some 32]
      ∧ (∃ b d, Binary.read out = .ok b ∧ Draft.ofBinary b = .ok d ∧ d.forget = p.draft.forget)
      ∧ ∀ call ∈ p.addedCalls p₀.draft.functions.length,
        ∃ r ∈ p₁.requests, call.operands.head? = some r.function
        ∧ ∃ f σ, Supplied (fun _ => some permit) r p.draft f σ
          ∧ p.draft.functions.filter (·.id = r.function) = [f.rename σ] := by
  have hrun : ((new loadsThenQueries).map fun p₀ => decide (
      let p₁ := (p₀.run { bufferAddress := true, rayQuery := true }).2
      let p := (p₁.link fun _ => some permit).2
      (p₀.run { bufferAddress := true, rayQuery := true }).1 = .ok 2
      ∧ (p₁.link fun _ => some permit).1 = .ok ()
      ∧ p₁.requests = [⟨BufferAddress.helper, 24⟩, ⟨RayQuery.helper, 32⟩]
      ∧ (p.addedCalls p₀.draft.functions.length).map (·.operands.head?) = [some 24, some 32]
      ∧ p.draft.entryPoints = [])) = .ok true := by
    decide +kernel
  obtain ⟨p₀, h, hcount, hlink, hrequests, hadded, hentries⟩ := exists_ok_of_decide hrun
  have hi := instrument_eq_ok_iff.mpr ⟨p₀, 2, h, hcount, hlink, rfl⟩
  obtain ⟨p₀', count, p₁, p, h', hr, hl, hout, _, _, _, hread, hcalls⟩ := callee_of_instrument hi
  obtain rfl : p₀ = p₀' := Except.ok.inj (h.symm.trans h')
  obtain rfl : (p₀.run { bufferAddress := true, rayQuery := true }).2 = p₁ := congrArg Prod.snd hr
  obtain rfl : ((p₀.run { bufferAddress := true, rayQuery := true }).2.link
    fun _ => some permit).2 = p := congrArg Prod.snd hl
  refine ⟨_, p₀, _, _, hi, h, Prod.ext hcount rfl, hl, rfl, hrequests, hadded,
    hread.mpr (by simp [hentries]), fun call hcall => ?_⟩
  obtain ⟨r, hr, hcallee, _, f, σ, hf, hfunctions, _⟩ := hcalls call hcall
  exact ⟨r, hr, hcallee, f, σ, hf, hfunctions⟩

-- A helper with a variable of its own.
def counts : List Word :=
  [0x07230203, 0x00010500, 0, 8, 0,
   0x20014, 1, 0x30021, 2, 1, 0x30029, 1, 5, 0x40020, 6, 6, 1, 0x4003B, 6, 7, 6,
   0x50036, 1, 3, 0, 2, 0x200F8, 4, 0x200FE, 5, 0x10038]

def padding : List Word :=
  replicate 65531 0

-- An entry point that is as long as can be.
def crowdedEntry : Statement :=
  .new .entryPoint none none (5 :: 3 :: 0 :: padding)

def crowdedHeader : Header :=
  ⟨Header.magicNumber, ⟨1, 5⟩, 0, 13, 0⟩

def crowded : List Word :=
  crowdedHeader.words ++ (0xFFFF000F :: 5 :: 3 :: 0 :: padding ++ startsRayQuery.drop 5)

-- Reading goes on behind the entry point, of which only the first words are ever looked at.
def crowdedRead : Except ReadError Binary :=
  (Binary.readFrom 13 0 (Header.length + 65535) (startsRayQuery.drop 5)
    (({} : Binary.Accepted).withInstruction
      ⟨0, Header.length, 0xFFFF000F :: 5 :: 3 :: 0 :: padding⟩)).map
    fun a => ⟨crowdedHeader, crowded, a.instructions, a.definitions⟩

theorem length_crowdedEntry : crowdedEntry.length = 65535 := by
  have hpadding : padding.length = 65531 := length_replicate
  have hoperands : crowdedEntry.operands = 5 :: 3 :: 0 :: padding := rfl
  rw [Statement.length, hoperands, length_cons, length_cons, length_cons, hpadding]
  rfl

theorem ofWords_crowded : Binary.ofWords crowded = crowdedRead := by
  have hwell : crowdedEntry.WellFormed :=
    ⟨by decide, rfl, rfl, by rw [length_crowdedEntry]; decide⟩
  have hfits : crowdedEntry.Fits := by
    rw [Statement.Fits, length_crowdedEntry]
    decide
  have hwords : crowdedEntry.words = 0xFFFF000F :: 5 :: 3 :: 0 :: padding := by
    rw [Statement.words_eq, length_crowdedEntry]
    rfl
  have hstep : Binary.readFrom 13 0 Header.length (crowdedEntry.words ++ startsRayQuery.drop 5) {}
      = _ :=
    Binary.readFrom_words _ _ hwell hfits (by simp [crowdedEntry, Statement.new])
  rw [length_crowdedEntry, Statement.instruction, hwords] at hstep
  rw [Binary.ofWords, Header.nativeOrder_of_head? rfl, Binary.read, crowded, Header.read?_words rfl]
  simp only [drop_left' (show crowdedHeader.words.length = Header.length from rfl)]
  rw [show crowdedHeader.bound = 13 from rfl, hstep, crowdedRead]
  generalize Binary.readFrom 13 0 _ _ _ = read
  cases read <;> rfl

-- The helper's variable makes the entry point one word longer than can be said.
theorem zeroLength_of_instrument_crowded :
    ∃ out p₀ p₁ p, instrument crowded { rayQuery := true } (fun _ => some counts) = .ok out
      ∧ new crowded = .ok p₀ ∧ p₀.run { rayQuery := true } = (.ok 1, p₁)
      ∧ p₁.link (fun _ => some counts) = (.ok (), p) ∧ out = p.words
      ∧ (p.addedCalls p₀.draft.functions.length).map (·.operands.head?) = [some 16]
      ∧ Binary.read out = .error (.framing 0 5 .zeroLength) := by
  have hrun : ((new crowded).map fun p₀ => decide (
      let p₁ := (p₀.run { rayQuery := true }).2
      let p := (p₁.link fun _ => some counts).2
      (p₀.run { rayQuery := true }).1 = .ok 1
      ∧ (p₁.link fun _ => some counts).1 = .ok ()
      ∧ (p.addedCalls p₀.draft.functions.length).map (·.operands.head?) = [some 16]
      ∧ ((ranked Instruction.op? false p₀.analysis.instructions.toList).filter
        (·.1 = Section.entryPoints.rank)).map (·.2.words.headD 0) = [0xFFFF000F]
      ∧ p₁.draft.version.atLeast 1 4
      ∧ Linking.moduleVariables (p.draft.globals.drop p₁.draft.globals.length) = [24]
      ∧ (p.draft.capabilities ++ p.draft.extensions ++ p.draft.imports
        ++ p.draft.memoryModel).isEmpty)) = .ok true := by
    rw [new, load, Module.ofWords, ofWords_crowded]
    decide +kernel
  obtain ⟨p₀, h, hcount, hlink, hadded, hentry, hversion, hnew, hfirst⟩ := exists_ok_of_decide hrun
  refine ⟨_, p₀, _, _, instrument_eq_ok_iff.mpr ⟨p₀, 1, h, hcount, hlink, rfl⟩, h,
    Prod.ext hcount rfl, Prod.ext hlink rfl, rfl, hadded, ?_⟩
  have hentries := (run_recodes hcount).entryPoints
  obtain ⟨_, hlists, _⟩ := (Succeeded.start.run _ hcount).supplies h hlink
  -- Both pipelines are variables from here on, so that nothing is computed a second time.
  generalize ((p₀.run { rayQuery := true }).2.link fun _ => some counts).2 = p at *
  generalize (p₀.run { rayQuery := true }).2 = p₁ at *
  obtain ⟨hm, hd, _⟩ := of_new h
  have hv := Binary.read_valid (Module.read_of_ofWords hm)
  obtain ⟨x, hx, hword⟩ := map_eq_singleton_iff.mp hentry
  have hframed : x.2.Framed :=
    hv.framed x.2 (mem_of_mem_ranked (mem_of_mem_filter (hx ▸ mem_singleton_self x)))
  have hlength : (Statement.ofInstruction x.2).length = 65535 := by
    rw [hframed.wellFormed.right, ← hframed.length, hword]
    rfl
  have hbefore : p₁.draft.entryPoints = [.ofInstruction x.2] := by
    have hsection := Draft.inSection_of_ofBinary hd hv .entryPoints
    rw [hx] at hsection
    exact hentries.trans hsection
  obtain ⟨new, hglobals, hlisted⟩ := hlists.entryPoints
  rw [hglobals, drop_left] at hnew
  rw [hnew, Linking.listVariables, if_pos hversion, hbefore] at hlisted
  refine Draft.read_words_eq_zeroLength (List.isEmpty_iff.mp hfirst) hlisted
    hframed.wellFormed.left.opcode_lt ?_
  rw [Statement.length_append_operands, hlength]
  decide

end Pipeline
end Shader
