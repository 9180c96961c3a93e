import Shader.Proofs.Link.Helper

namespace Shader

open List

theorem Statement.op?_of_belongsTo_imports {s : Statement} (h : s.BelongsTo .imports) :
    s.op? = some .extInstImport := by
  unfold BelongsTo section? at h
  split at h
  case h_3 op _ _ ho =>
    rw [Option.some.injEq] at h
    unfold Op.layoutSection at h
    split at h <;> simp_all
  all_goals simp at h

namespace Linking

variable {host d d' : Draft} {request : Id} {settled shared : List Id} {held : List Definition}
  {m m' m'' : Renaming} {s : Statement} {ss : List Statement}

def Added (sec : Section) (m : Renaming) (d : Draft) (m' : Renaming) (d' : Draft) : Prop :=
  ∃ new, Advance m d (only sec new) [] m' d'

namespace Added

variable {sec : Section} {d'' : Draft}

theorem refl (m : Renaming) (d : Draft) : Added sec m d m d :=
  ⟨[], only_nil sec ▸ .refl m d⟩

theorem trans (h : Added sec m d m' d') (h' : Added sec m' d' m'' d'') : Added sec m d m'' d'' := by
  have ⟨new, ha⟩ := h
  have ⟨new', ha'⟩ := h'
  exact ⟨new ++ new', only_append sec new new' ▸ ha.trans ha'⟩

theorem push (s : Statement) : Added sec m d m (d.push s sec) :=
  ⟨[s], .push m d s sec⟩

end Added

theorem capability_leads (name : String) (h : Linked host request settled shared held m d) :
    Leads (edit (capability name s)) m d (fun _ m' d' => m' = m ∧ Added .capabilities m d m d'
      ∧ Linked host request settled shared held m d') (Abandoned host request) := by
  unfold capability
  split
  case h_1 => exact .edit <| .throw h.abandoned
  case h_2 w _ _ =>
    split
    case isTrue => exact .edit <| .pure ⟨rfl, .refl m d, h⟩
    case isFalse =>
      refine .edit <| .modify ?_
      unfold Draft.addCapabilityWord
      split
      case isTrue => exact ⟨rfl, .refl m d, h⟩
      case isFalse =>
        refine ⟨rfl, .push _, h.push (s := .new .capability none none [w]) ?_ rfl
          (show 2 < _ by decide)⟩
        exact .new rfl rfl (show _ ≤ 2 by decide)

theorem forM_capability_leads (name : String) (h : Linked host request settled shared held m d) :
    Leads (ss.forM fun s => edit (capability name s)) m d (fun _ m' d' => m' = m
      ∧ Added .capabilities m d m d' ∧ Linked host request settled shared held m d')
      (Abandoned host request) := by
  refine .forM (fun _ m' d' => m' = m ∧ Added .capabilities m d m d'
    ∧ Linked host request settled shared held m d') ?_ ⟨rfl, .refl m d, h⟩
  rintro past s rest _ d₁ _ ⟨rfl, ha, h₁⟩
  exact (capability_leads name h₁).weaken fun _ _ d₂ ⟨hm, ha', h₂⟩ => ⟨hm, ha.trans ha', h₂⟩

theorem addExtension_added (h : Linked host request settled shared held m d) (hf : s.Fits) :
    Added .extensions m d m (d.addExtension s.operands)
      ∧ Linked host request settled shared held m (d.addExtension s.operands) := by
  unfold Draft.addExtension
  split
  case isTrue => exact ⟨.refl m d, h⟩
  case isFalse =>
    have hl : (Statement.new .extension none none s.operands).length = 1 + s.operands.length := by
      simp [Statement.new, Statement.length]
    refine ⟨.push _, h.push (s := .new .extension none none s.operands) (.new rfl rfl ?_) rfl ?_⟩
    · rw [hl]
      exact Nat.le_add_right 1 _
    · unfold Statement.Fits at hf ⊢
      rw [hl]
      unfold Statement.length at hf
      omega

theorem foldl_addExtension_added (ss : List Statement)
    (h : Linked host request settled shared held m d) (hf : ∀ s ∈ ss, s.Fits) :
    Added .extensions m d m (ss.foldl (fun d s => d.addExtension s.operands) d)
      ∧ Linked host request settled shared held m
        (ss.foldl (fun d s => d.addExtension s.operands) d) := by
  induction ss generalizing d
  case nil => exact ⟨.refl m d, h⟩
  case cons s ss hi =>
    rw [forall_mem_cons] at hf
    have ⟨ha, h₁⟩ := addExtension_added h hf.left
    have ⟨ha', h₂⟩ := hi h₁ hf.right
    exact ⟨ha.trans ha', h₂⟩

def Imported (m : Renaming) (d : Draft) (s : Statement) : Prop :=
  ∃ x y t, s.resultId = some x ∧ m[x]? = some y ∧ t ∈ d.imports ∧ t.resultId = some y
    ∧ t.operands = s.operands

theorem Imported.mono (h : Imported m d s) (he : m.Extends m')
    (hi : d.inSection .imports ⊆ d'.inSection .imports) : Imported m' d' s := by
  have ⟨x, y, t, hx, hy, ht, heq⟩ := h
  exact ⟨x, y, t, hx, he x y hy, hi ht, heq⟩

theorem importStatement_wellFormed (hs : s.WellFormed) (hb : s.BelongsTo .imports) (hf : s.Fits)
    (id : Id) :
    (Statement.new .extInstImport none (some id) s.operands).WellFormed
      ∧ (Statement.new .extInstImport none (some id) s.operands).Fits := by
  have ho := Statement.op?_of_belongsTo_imports hb
  have ht := hs.type
  have hr := hs.result
  simp only [Statement.outcome, ho, Option.elim_some] at ht hr
  have hl : (Statement.new .extInstImport none (some id) s.operands).length = s.length := by
    obtain ⟨y, hy⟩ := Option.isSome_iff_exists.mp hr
    have hn := Option.isSome_eq_false_iff.mp ht
    rw [Option.isNone_iff_eq_none] at hn
    simp [Statement.new, Statement.length, hn, hy]
  exact ⟨hs.of_same (Op.number_of_ofNumber? ho) ht.symm hr.symm (Nat.le_of_eq hl.symm),
    by rwa [Statement.Fits, hl]⟩

theorem importSet_leads {x : Id} (h : Linked host request settled shared held m d)
    (hr : s.resultId = some x) (hx : m[x]? = none) (hs : s.WellFormed) (hb : s.BelongsTo .imports)
    (hf : s.Fits) :
    Leads (importSet s) m d (fun _ m' d' => Added .imports m d m' d' ∧ Imported m' d' s
      ∧ (∃ y, m' = m.insert x y)
      ∧ Linked host request (x :: settled) (x :: shared) held m' d') (Abandoned host request) := by
  unfold importSet
  simp only [hr]
  refine .bind <| .edit <| .get ?_
  have hinsert (y : Id) : (m.insert x y)[x]? = some y := by simp
  split
  -- The host imports the set already.
  case h_1 id hid =>
    obtain ⟨t, ht, htid⟩ := Option.bind_eq_some_iff.mp hid
    refine .bind <| .pure <| .modify ⟨⟨[], ?_⟩, ?_, ⟨id, rfl⟩, h.share x id⟩
    · exact only_nil .imports ▸ ⟨.insert hx, rfl, by simp, by simp⟩
    · exact ⟨x, id, t, hr, hinsert id, mem_of_find?_eq_some ht, htid, by simpa using find?_some ht⟩
  case h_2 =>
    refine .bind <| .edit <| .bind <| .bind <| .get ?_
    split
    case isFalse => exact .throw h.abandoned
    case isTrue hbound =>
      refine .bind <| .set <| .pure <| .bind <| .modify <| .pure <|
        .modify ⟨?_, ?_, ⟨d.bound, rfl⟩, ?_⟩
      case refine_1 =>
        have hq : Quiet m d (m.insert x d.bound) { d with bound := d.bound + 1 } :=
          ⟨.insert hx, rfl, fun sec => by cases sec <;> simp [Draft.inSection], by simp⟩
        exact ⟨_, hq.trans (.push ..)⟩
      case refine_2 =>
        exact ⟨x, d.bound, _, hr, hinsert d.bound, mem_append_right _ mem_cons_self, rfl, rfl⟩
      case refine_3 =>
        obtain ⟨hw, hfits⟩ := importStatement_wellFormed hs hb hf d.bound
        refine Linked.share (h.edit ?_ (by simp) fun base rest hd => ?_) x d.bound
        · rw [Draft.bound_push, UInt32.le_iff_toNat_le, toNat_bound_succ hbound]
          exact Nat.le_succ _
        · exact (hd.allocate hbound).push (s := .new .extInstImport none (some d.bound) s.operands)
            hw rfl hfits

theorem forM_importSet_leads (h : Linked host request settled shared held m d)
    (hu : Unsettled settled ss) (hm : ∀ x ∈ ss.filterMap Statement.resultId, m[x]? = none)
    (hs : ∀ s ∈ ss, s.WellFormed ∧ s.BelongsTo .imports ∧ s.Fits) :
    Leads (ss.forM importSet) m d (fun _ m' d' => Added .imports m d m' d'
      ∧ (∀ s ∈ ss, Imported m' d' s)
      ∧ Linked host request (ss.filterMap Statement.resultId ++ settled)
        (ss.filterMap Statement.resultId ++ shared) held m' d') (Abandoned host request) := by
  refine Leads.weaken (Leads.forM (fun past m' d' =>
    (∀ x ∉ past.filterMap Statement.resultId, m'[x]? = m[x]?)
    ∧ Added .imports m d m' d' ∧ (∀ s ∈ past, Imported m' d' s)
    ∧ Linked host request (past.filterMap Statement.resultId ++ settled)
        (past.filterMap Statement.resultId ++ shared) held m' d') ?_
        ⟨by simp, .refl m d, by simp, h⟩)
    fun _ _ _ h => h.right
  rintro past s rest m₁ d₁ heq ⟨hkeys, ha, hi, h₁⟩
  obtain ⟨hw, hb, hf⟩ := hs s (by simp [heq])
  have hres := hw.result
  rw [Statement.outcome, Statement.op?_of_belongsTo_imports hb] at hres
  obtain ⟨x, hr⟩ := Option.isSome_iff_exists.mp hres
  -- Imports are met once each, so none has a name before its turn.
  have hx : m₁[x]? = none := by
    rw [heq, unsettled_append_iff, ← singleton_append, unsettled_append_iff] at hu
    rw [hkeys x fun hp => ?_, hm x (by simp [heq, hr])]
    exact hu.right.left.right x (by simp [hr]) (mem_append_left _ hp)
  refine (importSet_leads h₁ hr hx hw hb hf).weaken fun _ m₂ d₂ h => ?_
  obtain ⟨ha', hi', ⟨y, hm₂⟩, h₂⟩ := h
  refine ⟨?_, ha.trans ha', ?_, ?_⟩
  · intro z hz
    simp only [filterMap_append, filterMap_cons, hr, filterMap_nil, mem_append, mem_singleton,
      not_or] at hz
    rw [hm₂, Std.TreeMap.getElem?_insert, if_neg (by simpa using Ne.symm hz.right), hkeys z hz.left]
  · intro t ht
    rw [mem_append, mem_singleton] at ht
    cases ht
    case inl ht =>
      obtain ⟨_, hadv⟩ := ha'
      exact (hi t ht).mono hadv.extended (hadv.subset .imports)
    case inr ht => exact ht ▸ hi'
  · have hp (ids : List Id) : x :: (past.filterMap Statement.resultId ++ ids)
        ~ (past ++ [s]).filterMap Statement.resultId ++ ids := by
      simp only [filterMap_append, filterMap_cons, hr, filterMap_nil, append_assoc]
      exact perm_middle.symm
    exact (h₂.settle_all (hp _).subset).share_perm (hp _)

theorem forM_string_leads (h : Linked host request settled shared held m d)
    (hu : Unsettled settled ss) (hs : ∀ s ∈ ss, s.WellFormed ∧ s.BelongsTo .debug ∧ s.Fits) :
    Leads (ss.forM string) m d (fun _ m' d' => Placed m d (only .debug ss) [] m' d'
      ∧ Linked host request (ss.filterMap Statement.resultId ++ settled) shared held m' d')
      (Abandoned host request) := by
  have hl := forM_append_leads .debug string (fun _ => true) h hu ?_
  · rwa [filter_true] at hl
  · intro s hmem settled m d h hu
    have ⟨hw, hb, hf⟩ := hs s hmem
    exact append_leads h hu hw hb hf

theorem forM_annotation_leads (h : Linked host request settled shared held m d)
    (hu : Unsettled settled ss) (hs : ∀ s ∈ ss, s.WellFormed ∧ s.BelongsTo .annotations ∧ s.Fits) :
    Leads (ss.forM annotation) m d (fun _ m' d' =>
      Placed m d (only .annotations (ss.filter (!·.isLinkageAttributes))) [] m' d'
      ∧ Linked host request (ss.filterMap Statement.resultId ++ settled) shared held m' d')
      (Abandoned host request) := by
  refine forM_append_leads .annotations annotation _ h hu fun s hmem settled m d h hu => ?_
  have ⟨hw, hb, hf⟩ := hs s hmem
  unfold annotation
  split
  case isTrue hl =>
    refine .pure ⟨?_, h.settle_all (subset_append_right ..)⟩
    simpa [hl] using Placed.nil m d .annotations
  case isFalse hl =>
    simp only [filter_cons, hl, filter_nil]
    exact append_leads h hu hw hb hf

theorem listVariables_linked (new : List Id) (h : Linked host request settled shared held m d) :
    Linked host request settled shared held m (listVariables new d) :=
  h.edit (by simp) (by unfold listVariables; split <;> rfl) fun _ _ hd => hd.list new

theorem header_listVariables (new : List Id) (d : Draft) :
    (listVariables new d).header = d.header := by
  unfold listVariables
  split <;> rfl

theorem functions_listVariables (new : List Id) (d : Draft) :
    (listVariables new d).functions = d.functions := by
  unfold listVariables
  split <;> rfl

theorem inSection_listVariables (new : List Id) (d : Draft) {sec : Section}
    (h : sec ≠ .entryPoints) :
    (listVariables new d).inSection sec = d.inSection sec := by
  unfold listVariables
  split <;> cases sec <;> first | rfl | exact absurd rfl h

-- A helper is taken over in stages: `added` and then `placed` are appended to the sections, the
-- entry points list the variables in `new`, and the functions `fs` come last.
structure Stages (m : Renaming) (host : Draft) (added placed : Section → List Statement)
    (new : List Id) (fs : List FunctionDraft) (m₁ : Renaming) (d₁ : Draft) (m₂ : Renaming)
    (d₂ : Draft) (m' : Renaming) (d' : Draft) : Prop where
  added  : Advance m host added [] m₁ d₁
  placed : Placed m₁ d₁ placed [] m₂ d₂
  last   : Placed m₂ (listVariables new d₂) (fun _ => []) fs m' d'

namespace Stages

variable {added placed : Section → List Statement} {new : List Id} {fs : List FunctionDraft}
  {m₁ m₂ : Renaming} {d₁ d₂ : Draft} (h : Stages m host added placed new fs m₁ d₁ m₂ d₂ m' d')

include h

theorem extended : m.Extends m' :=
  h.added.extended.trans (h.placed.advance.extended.trans h.last.advance.extended)

theorem covers (sec : Section) (hs : s ∈ placed sec) : m'.Covers s :=
  (h.placed.covers sec s hs).mono h.last.advance.extended

theorem inSection_last (sec : Section) (he : sec ≠ .entryPoints) :
    d'.inSection sec = d₂.inSection sec := by
  rw [h.last.advance.sections, inSection_listVariables new d₂ he, map_nil, append_nil]

theorem inSection (sec : Section) (he : sec ≠ .entryPoints) : d'.inSection sec
    = host.inSection sec ++ added sec ++ (placed sec).map (Statement.rename m'.image) := by
  rw [h.inSection_last sec he, h.placed.advance.sections, h.added.sections]
  congr 1
  exact map_congr_left fun s hs =>
    ((h.placed.covers sec s hs).rename_eq h.last.advance.extended).symm

theorem isPrefix (sec : Section) (he : sec ≠ .entryPoints) :
    host.inSection sec <+: d'.inSection sec := by
  rw [h.inSection sec he, append_assoc]
  exact prefix_append ..

theorem header : { d'.header with bound := host.bound } = host.header := by
  have h₂ := (h.added.trans h.placed.advance).header
  have h₃ := h.last.advance.header
  rw [header_listVariables] at h₃
  simp only [Draft.header, Header.mk.injEq] at h₂ h₃ ⊢
  simp [h₂, h₃]

theorem functions : d'.functions = host.functions ++ fs.map (FunctionDraft.rename m'.image) := by
  rw [h.last.advance.functions, functions_listVariables, (h.added.trans h.placed.advance).functions]
  simp

theorem entryPoints (ha : added .entryPoints = []) (hp : placed .entryPoints = []) :
    d'.entryPoints = (listVariables new host).entryPoints := by
  have h₂ := h.added.trans h.placed.advance
  have hsame : d₂.entryPoints = host.entryPoints := by
    simpa [Draft.inSection, ha, hp] using h₂.sections .entryPoints
  have hversion : d₂.version = host.version := congrArg Header.version h₂.header
  have hlast : d'.entryPoints = (listVariables new d₂).entryPoints := by
    simpa [Draft.inSection] using h.last.advance.sections .entryPoints
  rw [hlast, listVariables, listVariables, hversion]
  split <;> simp [hsame]

end Stages

def takenOver (h : Draft) : List Statement :=
  h.imports ++ h.debug.filter (·.is .string) ++ h.globals ++ h.annotations
    ++ h.functions.flatMap FunctionDraft.statements

theorem unsettled_takenOver {h : Draft} (hd : (h.definitions.map Prod.fst).Nodup) :
    Unsettled [] (takenOver h) := by
  refine ⟨?_, by simp⟩
  rw [Draft.definitions, map_fst_flatMap_defines, nodup_iff_count_le_one] at hd
  rw [nodup_iff_count_le_one]
  intro x
  refine Nat.le_trans ?_ (hd x)
  have hstrings := ((filter_sublist (p := (·.is .string)) (l := h.debug)).filterMap
    Statement.resultId).count_le x
  simp only [takenOver, Draft.statements, Draft.declarations, filterMap_append, count_append]
  omega

structure HelperLinked (host : Draft) (request : Id) (h : Draft) (kept found : List Statement)
    (m : Renaming) (d : Draft) : Prop where
  sublist      : kept <+ h.globals
  parts        : kept ++ found ~ h.globals
  sharing      : ∀ s ∈ found, Found m d s
  plain        : Plain h found
  imported     : ∀ s ∈ h.imports, Imported m d s
  header       : { d.header with bound := host.bound } = host.header
  capabilities : host.capabilities <+: d.capabilities
  extensions   : host.extensions <+: d.extensions
  imports      : host.imports <+: d.imports
  memoryModel  : d.memoryModel = host.memoryModel
  entryPoints  : d.entryPoints = (listVariables (newVariables m kept) host).entryPoints
  modes        : d.modes = host.modes
  debug        : d.debug = host.debug
    ++ (h.debug.filter (·.is .string)).map (Statement.rename m.image)
  annotations  : d.annotations = host.annotations
    ++ (h.annotations.filter (!·.isLinkageAttributes)).map (Statement.rename m.image)
  globals      : d.globals = host.globals ++ kept.map (Statement.rename m.image)
  functions    : d.functions = host.functions ++ h.functions.map (FunctionDraft.rename m.image)
  covers       : ∀ s ∈ h.debug.filter (·.is .string) ++ kept
    ++ h.annotations.filter (!·.isLinkageAttributes)
    ++ h.functions.flatMap FunctionDraft.statements, m.Covers s
  linked       : Linked host request ((takenOver h).filterMap Statement.resultId)
    (found.filterMap Statement.resultId ++ h.imports.filterMap Statement.resultId) [] m d

theorem helper_leads (name : String) {h : Draft} (hw : h.WellFormed)
    (hd : (h.definitions.map Prod.fst).Nodup) (hl : Linked host request [] [] [] m host)
    (hm : ∀ x ∈ h.imports.filterMap Statement.resultId, m[x]? = none) :
    Leads (helper name h) m host (fun _ m' d' => m.Extends m' ∧ ∃ kept found,
      HelperLinked host request h kept found m' d') (Abandoned host request) := by
  have hu := unsettled_takenOver hd
  simp only [takenOver, unsettled_append_iff, append_nil] at hu
  have ⟨⟨⟨⟨hui, hus⟩, hug⟩, hua⟩, huf⟩ := hu
  have hform (sec : Section) (he : sec ≠ .entryPoints) {s : Statement} (hs : s ∈ h.inSection sec) :
      s.WellFormed ∧ s.BelongsTo sec ∧ s.Fits :=
    ⟨(hw.sections sec s hs).left, (hw.sections sec s hs).right, hw.fits sec he s hs⟩
  -- The stages in turn: each starts from what the one before it links.
  refine .bind <| (forM_capability_leads name hl).weaken ?_
  rintro _ m d₁ ⟨rfl, ⟨caps, a₁⟩, h₁⟩
  have ⟨⟨exts, a₂⟩, h₂⟩ := foldl_addExtension_added h.extensions h₁ fun s hs =>
    (hform .extensions (by decide) hs).right.right
  refine .bind <| .edit <| .modify ?_
  refine .bind <| (forM_importSet_leads h₂ hui hm fun s hs => hform .imports (by decide) hs).weaken
    fun _ m₃ d₃ ⟨⟨imps, a₃⟩, hi, h₃⟩ => ?_
  simp only [append_nil] at h₃
  refine .bind <| (forM_string_leads h₃ hus fun s hs =>
    hform .debug (by decide) (mem_of_mem_filter hs)).weaken fun _ m₄ d₄ ⟨p₄, h₄⟩ => ?_
  have h₄ := h₄.settled_append
  refine .bind <| (filterMapM_global_leads h name h₄ hug fun s hs =>
    hform .globals (by decide) hs).weaken fun vs m₅ d₅ ⟨kept, found, hvs, hplain, hdecl⟩ => ?_
  have h₅ := hdecl.linked.settled_append
  refine .bind <| (forM_annotation_leads h₅ hua fun s hs =>
    hform .annotations (by decide) hs).weaken fun _ m₆ d₆ ⟨p₆, h₆⟩ => ?_
  have h₆ := h₆.settled_append
  refine .bind <| .edit <| .modify ?_
  refine (forM_function_leads (listVariables_linked vs h₆) huf hw.functions).weaken
    fun _ m₈ d₈ ⟨p₈, h₈⟩ => ?_
  have h₈ := h₈.settled_append
  have hs : Stages m host _ _ vs h.functions m₃ d₃ m₆ d₆ m₈ d₈ :=
    ⟨(a₁.trans a₂).trans a₃, (p₄.trans hdecl.placed).trans p₆, p₈⟩
  have e₆ := p₆.advance.extended.trans p₈.advance.extended
  -- The stages behind the globals keep the names that these were given.
  have hvs' : vs = newVariables m₈ kept := by
    rw [hvs, newVariables_eq (fun s hs => ?_) e₆]
    exact hdecl.placed.covers .globals s (by simpa [only] using hs)
  refine ⟨hs.extended, kept, found, ?_⟩
  exact {
    sublist := hdecl.sublist
    parts := hdecl.parts
    sharing := fun s hf => (hdecl.sharing s hf).mono e₆ <| by
      rw [hs.inSection_last .globals (by decide)]
      exact p₆.advance.subset .globals
    plain := hplain
    imported := fun s hmem =>
      (hi s hmem).mono (hs.placed.advance.extended.trans p₈.advance.extended) <| by
      rw [hs.inSection_last .imports (by decide)]
      exact hs.placed.advance.subset .imports
    header := hs.header
    capabilities := hs.isPrefix .capabilities (by decide)
    extensions := hs.isPrefix .extensions (by decide)
    imports := hs.isPrefix .imports (by decide)
    memoryModel := by simpa [only, Draft.inSection] using hs.inSection .memoryModel (by decide)
    entryPoints := by
      rw [← hvs']
      exact hs.entryPoints (by simp [only]) (by simp [only])
    modes := by simpa [only, Draft.inSection] using hs.inSection .modes (by decide)
    debug := by simpa [only, Draft.inSection] using hs.inSection .debug (by decide)
    annotations := by simpa [only, Draft.inSection] using hs.inSection .annotations (by decide)
    globals := by simpa [only, Draft.inSection] using hs.inSection .globals (by decide)
    functions := hs.functions
    covers := fun s hmem => by
      simp only [mem_append, mem_flatMap] at hmem
      obtain ((hmem | hmem) | hmem) | ⟨f, hf, hmem⟩ := hmem
      · exact hs.covers .debug (by simpa [only] using hmem)
      · exact hs.covers .globals (by simpa [only] using hmem)
      · exact hs.covers .annotations (by simpa [only] using hmem)
      · exact p₈.functions f hf s hmem
    linked := h₈ }

end Linking
end Shader
