import Shader.Proofs.Link.Statement

namespace Shader

open List

namespace Linking

structure Placed (m : Renaming) (d : Draft) (new : Section → List Statement)
    (fs : List FunctionDraft) (m' : Renaming) (d' : Draft) : Prop where
  advance   : Advance m d (fun sec => (new sec).map (Statement.rename m'.image))
    (fs.map (FunctionDraft.rename m'.image)) m' d'
  covers    : ∀ sec, ∀ s ∈ new sec, m'.Covers s
  functions : ∀ f ∈ fs, ∀ s ∈ f.statements, m'.Covers s

namespace Placed

variable {m m' m'' : Renaming} {d d' d'' : Draft} {new new' : Section → List Statement}
  {fs fs' : List FunctionDraft}

theorem refl (m : Renaming) (d : Draft) : Placed m d (fun _ => []) [] m d :=
  ⟨.refl m d, by simp, by simp⟩

theorem trans (h : Placed m d new fs m' d') (h' : Placed m' d' new' fs' m'' d'') :
    Placed m d (fun sec => new sec ++ new' sec) (fs ++ fs') m'' d'' where
  advance := by
    have hm := h'.advance.extended
    have hs (sec : Section) :
        (new sec).map (Statement.rename m''.image) = (new sec).map (Statement.rename m'.image) :=
      map_congr_left fun s hs => (h.covers sec s hs).rename_eq hm
    have hf : fs.map (FunctionDraft.rename m''.image) = fs.map (FunctionDraft.rename m'.image) :=
      map_congr_left fun f hf => hm.function_rename_eq (h.functions f hf)
    have ht := h.advance.trans h'.advance
    simp only [map_append, hs, hf]
    exact ht
  covers sec s hs := by
    rw [mem_append] at hs
    cases hs
    case inl hs => exact (h.covers sec s hs).mono h'.advance.extended
    case inr hs => exact h'.covers sec s hs
  functions f hf s hs := by
    rw [mem_append] at hf
    cases hf
    case inl hf => exact (h.functions f hf s hs).mono h'.advance.extended
    case inr hf => exact h'.functions f hf s hs

theorem append {sec : Section} {ss ts : List Statement} (h : Placed m d (only sec ss) [] m' d')
    (h' : Placed m' d' (only sec ts) [] m'' d'') : Placed m d (only sec (ss ++ ts)) [] m'' d'' :=
  only_append sec ss ts ▸ h.trans h'

theorem nil (m : Renaming) (d : Draft) (sec : Section) : Placed m d (only sec []) [] m d :=
  only_nil sec ▸ refl m d

theorem one {sec : Section} {s : Statement}
    (h : Advance m d (only sec [s.rename m'.image]) [] m' d') (hc : m'.Covers s) :
    Placed m d (only sec [s]) [] m' d' where
  advance := by
    rw [map_only]
    exact h
  covers sec' t ht := by
    unfold only at ht
    split at ht
    case isTrue => exact mem_singleton.mp ht ▸ hc
    case isFalse => exact absurd ht not_mem_nil
  functions := by simp

end Placed

variable {host d d' : Draft} {request : Id} {settled shared : List Id} {held : List Definition}
  {m m' : Renaming} {s : Statement}

theorem Taken.place {s' : Statement} {sec : Section}
    (h : Taken host request settled shared held m d [s] [s'] m' d') (hs : s.WellFormed)
    (hb : s.BelongsTo sec) (hf : s.Fits) :
    Placed m d (only sec [s]) [] m' (d'.push s' sec)
      ∧ Linked host request ([s].filterMap Statement.resultId ++ settled) shared held m'
        (d'.push s' sec) := by
  obtain rfl : s' = s.rename m'.image := by simpa using h.image
  have hl := h.linked
  rw [flatMap_singleton] at hl
  exact ⟨.one (h.quiet.trans (.push m' d' _ sec)) (h.covers s mem_cons_self),
    hl.push hs.rename hb hf.rename⟩

theorem append_leads {sec : Section} (h : Linked host request settled shared held m d)
    (hu : Unsettled settled [s]) (hs : s.WellFormed) (hb : s.BelongsTo sec) (hf : s.Fits) :
    Leads (do let s ← statement s; edit (modify (·.push s sec))) m d
      (fun _ m' d' => Placed m d (only sec [s]) [] m' d'
        ∧ Linked host request ([s].filterMap Statement.resultId ++ settled) shared held m' d')
      (Abandoned host request) := by
  refine .bind <| (statement_leads s h hu).weaken fun s' m' d' ht => ?_
  exact .edit <| .modify <| ht.place hs hb hf

theorem forM_append_leads (sec : Section) (g : Statement → Linking PUnit) (keep : Statement → Bool)
    {ss : List Statement} (h : Linked host request settled shared held m d)
    (hu : Unsettled settled ss)

    (step : ∀ s ∈ ss, ∀ settled m d, Linked host request settled shared held m d →
      Unsettled settled [s] → Leads (g s) m d (fun _ m' d' =>
      Placed m d (only sec ([s].filter keep)) [] m' d'
      ∧ Linked host request ([s].filterMap Statement.resultId ++ settled) shared held m' d')
      (Abandoned host request)) :
    Leads (ss.forM g) m d (fun _ m' d' => Placed m d (only sec (ss.filter keep)) [] m' d'
      ∧ Linked host request (ss.filterMap Statement.resultId ++ settled) shared held m' d')
      (Abandoned host request) := by
  refine .forM (fun past m' d' => Placed m d (only sec (past.filter keep)) [] m' d'
    ∧ Linked host request (past.filterMap Statement.resultId ++ settled) shared held m' d')
    ?_ ⟨.nil m d sec, h⟩
  intro past s rest m₁ d₁ heq ⟨hp, h₁⟩
  rw [heq, unsettled_append_iff, ← singleton_append, unsettled_append_iff] at hu
  refine (step s (by simp [heq]) _ m₁ d₁ h₁ hu.right.left).weaken fun _ m₂ d₂ ⟨hp', h₂⟩ => ⟨?_, ?_⟩
  · rw [filter_append]
    exact hp.append hp'
  · rw [filterMap_append]
    refine h₂.settle_all ?_
    rw [append_assoc]
    exact (perm_append_comm_assoc ..).subset

theorem function_leads {f : FunctionDraft} (h : Linked host request settled shared held m d)
    (hu : Unsettled settled f.statements) (hf : f.WellFormed) :
    Leads (function f) m d (fun _ m' d' => Placed m d (fun _ => []) [f] m' d'
      ∧ Linked host request (f.statements.filterMap Statement.resultId ++ settled) shared
        held m' d')
      (Abandoned host request) := by
  rw [FunctionDraft.statements, unsettled_append_iff, unsettled_append_iff, ← singleton_append,
    unsettled_append_iff] at hu
  refine .bind <| (statement_leads f.definition h hu.left.left.left).weaken
    fun definition m₁ d₁ h₁ => ?_
  refine .bind <| (mapM_statement_leads h₁.linked hu.left.left.right).weaken
    fun parameters m₂ d₂ h₂ => ?_
  have h₁₂ := h₁.append h₂
  refine .bind <| (mapM_block_leads h₁₂.linked hu.left.right).weaken fun blocks m₃ d₃ h₃ => ?_
  obtain ⟨hb, h₃⟩ := h₃
  have h₁₃ := h₁₂.append h₃
  refine .bind <| (statement_leads f.close h₁₃.linked hu.right).weaken fun close m₄ d₄ h₄ => ?_
  have ht := h₁₃.append h₄
  refine .edit <| .modify ?_
  -- Each part was renamed by the map of its time; the last map extends all of them.
  have e₄ := h₄.quiet.extended
  have e₃ := h₃.quiet.extended.trans e₄
  have e₂ := h₂.quiet.extended.trans e₃
  obtain rfl : definition = f.definition.rename m₄.image := by simpa using h₁.image_of_extends e₂
  obtain rfl : parameters = f.parameters.map (Statement.rename m₄.image) := h₂.image_of_extends e₃
  obtain rfl : close = f.close.rename m₄.image := by simpa using h₄.image
  obtain rfl : blocks = f.blocks.map (Block.rename m₄.image) := by
    rw [hb]
    refine map_congr_left fun b hb => (e₄.block_rename_eq fun s hs => ?_).symm
    exact h₃.covers s (mem_flatMap.mpr ⟨b, hb, hs⟩)
  refine ⟨⟨?_, by simp, fun g hg => mem_singleton.mp hg ▸ ht.covers⟩, ?_⟩
  · have hp : Advance m₄ d₄ (fun _ => []) [f.rename m₄.image] m₄
        (d₄.pushFunction (f.rename m₄.image)) :=
      ⟨.refl m₄, rfl, fun sec => by cases sec <;> simp [Draft.pushFunction, Draft.inSection], rfl⟩
    exact ht.quiet.trans hp
  · refine ht.linked.pushFunction (f := f.rename m₄.image) (hf.rename m₄.image) ?_
      (f.origin_rename m₄.image)
    have hx := hf.resultId
    obtain ⟨y, hy⟩ := ht.covers f.definition (by simp) f.id
      (Statement.mem_ids_iff.mpr (.inr (.inl hx)))
    have hn : f.id ∉ shared :=
      fun hmem => hu.left.left.left.right f.id (by simp [hx]) (h.sharing hmem)
    rw [hf.id_rename, Renaming.image_of_getElem? hy]
    exact (ht.linked.fresh f.id y hy hn).left

theorem forM_function_leads {fs : List FunctionDraft}
    (h : Linked host request settled shared held m d)
    (hu : Unsettled settled (fs.flatMap FunctionDraft.statements)) (hf : ∀ f ∈ fs, f.WellFormed) :
    Leads (fs.forM function) m d (fun _ m' d' => Placed m d (fun _ => []) fs m' d'
      ∧ Linked host request ((fs.flatMap FunctionDraft.statements).filterMap Statement.resultId
        ++ settled)
        shared held m' d') (Abandoned host request) := by
  refine .forM (fun past m' d' => Placed m d (fun _ => []) past m' d'
    ∧ Linked host request ((past.flatMap FunctionDraft.statements).filterMap Statement.resultId
      ++ settled)
      shared held m' d') ?_ ⟨.refl m d, h⟩
  intro past f rest m₁ d₁ heq ⟨hp, h₁⟩
  rw [heq, flatMap_append, unsettled_append_iff, flatMap_cons, unsettled_append_iff] at hu
  refine (function_leads h₁ hu.right.left (hf f (by simp [heq]))).weaken
    fun _ m₂ d₂ ⟨hp', h₂⟩ => ⟨?_, ?_⟩
  · exact hp.trans hp'
  · rw [flatMap_append, filterMap_append, flatMap_singleton]
    refine h₂.settle_all ?_
    rw [append_assoc]
    exact (perm_append_comm_assoc ..).subset

def Found (m : Renaming) (d : Draft) (s : Statement) : Prop :=
  m.Covers s ∧ ∃ t ∈ d.globals, { t with origin := none } = s.rename m.image

theorem Found.mono (h : Found m d s) (he : m.Extends m')
    (hg : d.inSection .globals ⊆ d'.inSection .globals) :
    Found m' d' s := by
  have ⟨hc, t, ht, heq⟩ := h
  exact ⟨hc.mono he, t, hg ht, heq.trans (hc.rename_eq he).symm⟩

-- No annotation of the helper starts with the id of one of these.
def Plain (helper : Draft) (found : List Statement) : Prop :=
  ∀ s ∈ found, ∀ x, s.resultId = some x → helper.isDecorated x = false

def isModuleVariable (s : Statement) : Bool :=
  s.is .variable && s.operands.head? != some (.ofNat StorageClass.function.number)

-- What became of the globals `ss` of a helper. Those in `kept` were declared, the others were
-- found.
structure Declared (host : Draft) (request : Id) (settled shared : List Id) (held : List Definition)
    (m : Renaming) (d : Draft) (ss kept found : List Statement) (m' : Renaming) (d' : Draft) :
    Prop where
  sublist : kept <+ ss
  parts   : kept ++ found ~ ss
  placed  : Placed m d (only .globals kept) [] m' d'
  sharing : ∀ s ∈ found, Found m' d' s
  linked  : Linked host request (ss.filterMap Statement.resultId ++ settled)
    (found.filterMap Statement.resultId ++ shared) held m' d'

namespace Declared

variable {ss ts kept kept' found found' : List Statement} {m'' : Renaming} {d'' : Draft}

theorem nil (h : Linked host request settled shared held m d) :
    Declared host request settled shared held m d [] [] [] m d :=
  ⟨by simp, by simp, .nil m d .globals, by simp, h⟩

theorem of_quiet (h : Declared host request settled shared held m' d' ss kept found m'' d'')
    (hq : Quiet m d m' d') :
    Declared host request settled shared held m d ss kept found m'' d'' := by
  have hp : Placed m d (fun _ => []) [] m' d' := ⟨hq, by simp, by simp⟩
  exact { h with placed := hp.trans h.placed }

theorem append (h : Declared host request settled shared held m d ss kept found m' d')

    (h' : Declared host request (ss.filterMap Statement.resultId ++ settled)
      (found.filterMap Statement.resultId ++ shared) held m' d' ts kept' found' m'' d'') :
    Declared host request settled shared held m d (ss ++ ts) (kept ++ kept') (found ++ found')
      m'' d'' where
  sublist := h.sublist.append h'.sublist
  parts := by
    refine Perm.trans ?_ (h.parts.append h'.parts)
    simp only [append_assoc]
    exact (perm_append_comm_assoc ..).append_left _
  placed := h.placed.append h'.placed
  sharing := by
    intro s hs
    rw [mem_append] at hs
    cases hs
    case inl hs =>
      exact (h.sharing s hs).mono h'.placed.advance.extended (h'.placed.advance.subset .globals)
    case inr hs => exact h'.sharing s hs
  linked := by
    have hp (us vs : List Statement) (ids : List Id) : vs.filterMap Statement.resultId
        ++ (us.filterMap Statement.resultId ++ ids) ~ (us ++ vs).filterMap Statement.resultId
          ++ ids := by
      rw [filterMap_append, append_assoc]
      exact perm_append_comm_assoc ..
    exact (h'.linked.settle_all (hp ..).subset).share_perm (hp ..)

end Declared

section

variable {x : Id} (h : Linked host request settled shared held m d) (hr : s.resultId = some x)
  (hn : x ∉ settled) (hs : s.WellFormed) (hb : s.BelongsTo .globals) (hf : s.Fits)
  (hc : m.Covers { s with resultId := none })

theorem covers_insert {m : Renaming} {y : Id} (hr : s.resultId = some x)
    (hc : m.Covers { s with resultId := none }) (hx : m[x]? = some y) : m.Covers s := by
  intro z hz
  rw [Statement.mem_ids_iff] at hz
  obtain hz | hz | ⟨k, hz, hk⟩ := hz
  · exact hc z (Statement.mem_ids_iff.mpr (.inl hz))
  · obtain rfl : x = z := by simpa [hr] using hz
    exact ⟨y, hx⟩
  · exact hc z (Statement.mem_ids_iff.mpr (.inr (.inr ⟨k, hz, hk⟩)))

theorem rename_eq_of_extends {m m' : Renaming} {y : Id} (hr : s.resultId = some x)
    (hc : m.Covers { s with resultId := none }) (he : m.Extends m') (hx : m'[x]? = some y) :
    s.rename m'.image = { { s with resultId := none }.rename m.image with resultId := some y } := by
  rw [← hc.rename_eq he, ← Renaming.image_of_getElem? hx]
  unfold Statement.rename
  rw [hr]
  rfl

include hr hn hs hb hf hc

theorem placed_define {m' : Renaming} {d' : Draft} {y : Id} (hq : Quiet m d m' d')
    (hx : m'[x]? = some y) (h' : Linked host request settled shared held m' d') :
    Placed m d (only .globals [s]) [] m'
        ((d'.noteType (s.rename m'.image)).push (s.rename m'.image) .globals)
      ∧ Linked host request ([s].filterMap Statement.resultId ++ settled) shared held m'
        ((d'.noteType (s.rename m'.image)).push (s.rename m'.image) .globals) := by
  have hid : (s.rename m'.image).resultId = some y := by
    simp [Statement.rename, hr, Renaming.image_of_getElem? hx]
  refine ⟨.one ?_ (covers_insert hr (hc.mono hq.extended) hx), ?_⟩
  · exact (hq.quiet (.noteType ..)).trans (.push ..)
  · simpa [hr] using h'.define hx hn hid hs.rename hb hf.rename

include h in
theorem declare_leads {op : Op} (ho : s.op? = some op) :
    Leads (declare ({ s with resultId := none }.rename m.image) op x) m d
      (fun v m' d' => v.toList = ([s].filter isModuleVariable).filterMap (·.resultId.map m'.image)
        ∧ Placed m d (only .globals [s]) [] m' d'
        ∧ Linked host request ([s].filterMap Statement.resultId ++ settled) shared held m' d')
      (Abandoned host request) := by
  refine .bind <| (rename_leads x h).weaken fun y m' d' ⟨hq, hx, h'⟩ => ?_
  have hp := placed_define hr hn hs hb hf hc hq hx h'
  rw [rename_eq_of_extends hr hc hq.extended hx] at hp
  refine .bind <| .edit <| .modify <| .pure ⟨?_, hp⟩
  by_cases hv : op = .variable
  case neg => simp [isModuleVariable, Statement.is, ho, hv]
  case pos =>
    subst hv
    have hhead : ({ s with resultId := none }.rename m.image).operands.head? = s.operands.head? :=
      Statement.head?_operands_rename (Statement.isId_eq ho 0)
    by_cases hl : s.operands.head? = some (.ofNat StorageClass.function.number)
    · simp [isModuleVariable, hl, hhead]
    · simp [isModuleVariable, Statement.is, ho, hl, hhead, hr, Renaming.image_of_getElem? hx]

include h in
theorem findOrAddGlobal_leads {op : Op} (ho : s.op? = some op) (hx : m[x]? = none) :
    Leads (edit (Draft.findOrAddGlobal op ({ s with resultId := none }.rename m.image).resultType
        ({ s with resultId := none }.rename m.image).operands)) m d
      (fun id m' d' => m' = m ∧ ∃ kept found,
        Declared host request settled shared held m d [s] kept found (m.insert x id) d')
      (Abandoned host request) := by
  have hinsert (y : Id) : (m.insert x y)[x]? = some y := by simp
  have hnew (y : Id) : Statement.new op ({ s with resultId := none }.rename m.image).resultType
      (some y)
      ({ s with resultId := none }.rename m.image).operands
        = s.rename (Renaming.image (m.insert x y)) := by
    rw [rename_eq_of_extends hr hc (.insert hx) (hinsert y), Statement.new,
      Op.number_of_ofNumber? ho]
    rfl
  refine .edit <| .bind <| .get ?_
  split
  -- Found: the host gains nothing, and the statement stands for the one it has.
  case h_1 id hid =>
    refine .pure ⟨rfl, [], [s], ⟨by simp, by simp, ?_, ?_, ?_⟩⟩
    case refine_1 =>
      have ha : Advance m d (only .globals []) [] (m.insert x id) d :=
        ⟨.insert hx, rfl, fun sec => by simp [only], by simp⟩
      exact ⟨by simpa [map_only] using ha, fun sec t ht => by simp [only] at ht, by simp⟩
    case refine_2 =>
      obtain ⟨t, ht, heq⟩ := Draft.findGlobal?_spec hid
      rintro _ (_ | ⟨_, ⟨⟩⟩)
      exact ⟨covers_insert hr (hc.mono (.insert hx)) (hinsert id), t, ht, heq.trans (hnew id)⟩
    case refine_3 => simpa [hr] using h.share x id
  case h_2 =>
    refine .bind <| .bind <| .get ?_
    split
    case isFalse => exact .throw h.abandoned
    case isTrue hbound =>
      refine .bind <| .set <| .pure <| .bind <| .modify <| .pure ⟨rfl, [s], [], ?_⟩
      rw [hnew, Draft.noteType_push]
      have hq : Quiet m d (m.insert x d.bound) { d with bound := d.bound + 1 } :=
        ⟨.insert hx, rfl, fun sec => by cases sec <;> simp [Draft.inSection], by simp⟩
      obtain ⟨hp, hl⟩ := placed_define hr hn hs hb hf hc hq (hinsert _) (h.allocate x hbound)
      exact ⟨by simp, by simp, hp, by simp, hl⟩

end

def newVariables (m : Renaming) (kept : List Statement) : List Id :=
  (kept.filter isModuleVariable).filterMap (·.resultId.map m.image)

theorem newVariables_append (kept kept' : List Statement) :
    newVariables m (kept ++ kept') = newVariables m kept ++ newVariables m kept' := by
  simp [newVariables]

theorem newVariables_eq {kept : List Statement} (hc : ∀ s ∈ kept, m.Covers s) (he : m.Extends m') :
    newVariables m' kept = newVariables m kept := by
  refine filterMap_congr fun s hs => Option.map_congr fun x hx => ?_
  have ⟨y, hy⟩ := hc s (mem_of_mem_filter hs) x (Statement.mem_ids_iff.mpr (.inr (.inl hx)))
  exact Renaming.image_eq he hy

theorem global_leads (helper : Draft) (name : String)
    (h : Linked host request settled shared held m d) (hu : Unsettled settled [s])
    (hs : s.WellFormed) (hb : s.BelongsTo .globals) (hf : s.Fits) :
    Leads (global helper name s) m d (fun v m' d' => ∃ kept found, v.toList = newVariables m' kept
      ∧ Plain helper found ∧ Declared host request settled shared held m d [s] kept found m' d')
      (Abandoned host request) := by
  have hnil : Plain helper [] := by simp [Plain]
  have hu₀ : Unsettled settled [{ s with resultId := none }] := ⟨by simp, by simp⟩
  refine .bind <| (statement_leads { s with resultId := none } h hu₀).weaken
    fun unnamed m₁ d₁ ht => ?_
  obtain rfl : unnamed = { s with resultId := none }.rename m₁.image := by simpa using ht.image
  have hc := ht.covers _ mem_cons_self
  have h₁ : Linked host request settled shared held m₁ d₁ := ht.linked
  split
  -- Without a result the statement is moved as it is.
  case h_1 hr =>
    have heq : { s with resultId := none } = s := by rw [← hr]
    rw [heq] at ht
    have ⟨hp, hl⟩ := ht.place hs hb hf
    refine .bind <| .edit <| .modify <| .pure ⟨[s], [], ?_, hnil, ?_⟩
    · simp [newVariables, filter_cons, hr]
    · rw [heq]
      exact ⟨by simp, by simp, hp, by simp, hl⟩
  case h_2 x hr =>
    have hn : x ∉ settled := hu.right x (by simp [hr])
    split
    case h_2 => exact .throw h₁.abandoned
    case h_1 op ho =>
      refine .bind <| .get ?_
      split
      case isTrue hshare =>
        simp only [Bool.and_eq_true, Bool.not_eq_true', ← Std.TreeMap.isSome_getElem?_eq_contains,
          Option.isSome_eq_false_iff, Option.isNone_iff_eq_none] at hshare
        refine .bind <| (findOrAddGlobal_leads h₁ hr hn hs hb hf hc ho hshare.right).weaken ?_
        rintro id _ d₂ ⟨rfl, kept, found, hd⟩
        have hplain : Plain helper found := by
          intro t hfound y hy
          obtain rfl : t = s := mem_singleton.mp (hd.parts.subset (mem_append_right _ hfound))
          obtain rfl : x = y := Option.some.inj (hr.symm.trans hy)
          simpa [Draft.isShareable] using (Bool.and_eq_true_iff.mp hshare.left).right
        refine .bind <| .modify <| .pure ⟨kept, found, ?_, hplain, hd.of_quiet ht.quiet⟩
        -- What can be shared is a type or a constant, so it adds no variable.
        have hkept : ∀ t ∈ kept, isModuleVariable t = false := by
          intro t hk
          obtain rfl : t = s := mem_singleton.mp (hd.sublist.subset hk)
          simp [isModuleVariable, Statement.is, ho]
          rintro rfl
          exact absurd hshare.left (by simp [Draft.isShareable, Op.isType])
        rw [newVariables, filter_eq_nil_iff.mpr (by simpa using hkept)]
        rfl
      case isFalse =>
        refine (declare_leads h₁ hr hn hs hb hf hc ho).weaken fun v m₂ d₂ ⟨hv, hp, hl⟩ => ?_
        have hd : Declared host request settled shared held m₁ d₁ [s] [s] [] m₂ d₂ :=
          ⟨by simp, by simp, hp, by simp, hl⟩
        exact ⟨[s], [], hv, hnil, hd.of_quiet ht.quiet⟩

theorem filterMapM_global_leads (helper : Draft) (name : String) {ss : List Statement}
    (h : Linked host request settled shared held m d) (hu : Unsettled settled ss)
    (hs : ∀ s ∈ ss, s.WellFormed ∧ s.BelongsTo .globals ∧ s.Fits) :
    Leads (ss.filterMapM (global helper name)) m d (fun vs m' d' => ∃ kept found,
      vs = newVariables m' kept ∧ Plain helper found
      ∧ Declared host request settled shared held m d ss kept found m' d')
        (Abandoned host request) := by
  refine .filterMapM (fun past vs m' d' => ∃ kept found, vs = newVariables m' kept
    ∧ Plain helper found
    ∧ Declared host request settled shared held m d past kept found m' d') ?_
    ⟨[], [], rfl, by simp [Plain], .nil h⟩
  intro past s rest vs m₁ d₁ heq ⟨kept, found, hvs, hplain, hd⟩
  rw [heq, unsettled_append_iff, ← singleton_append, unsettled_append_iff] at hu
  have ⟨hw, hb, hf⟩ := hs s (by simp [heq])
  refine (global_leads helper name hd.linked hu.right.left hw hb hf).weaken
    fun v m₂ d₂ ⟨kept', found', hv, hplain', hd'⟩ => ⟨kept ++ kept', found ++ found', ?_, ?_,
    hd.append hd'⟩
  case refine_2 => exact forall_mem_append.mpr ⟨hplain, hplain'⟩
  have hc : ∀ t ∈ kept, m₁.Covers t :=
    fun t ht => hd.placed.covers .globals t (by simpa [only] using ht)
  rw [newVariables_append, hv, hvs, newVariables_eq hc hd'.placed.advance.extended]

end Linking
end Shader
