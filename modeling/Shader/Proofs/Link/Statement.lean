import Shader.Proofs.Link.Invariant

namespace Shader

open List

namespace Linking

variable {α β : Type}

def Leads (x : Linking α) (m : Renaming) (d : Draft) (done : α → Renaming → Draft → Prop)
    (failed : Draft → Prop) : Prop :=
  Shader.Leads (x m) d (fun r d' => done r.1 r.2 d') failed

namespace Leads

variable {x : Linking α} {f : α → Linking β} {m : Renaming} {d : Draft}
  {done done' : α → Renaming → Draft → Prop} {failed : Draft → Prop}

theorem weaken (h : Leads x m d done failed) (hd : ∀ a m' d', done a m' d' → done' a m' d') :
    Leads x m d done' failed :=
  Shader.Leads.weaken h fun r => hd r.1 r.2

theorem bind {done : β → Renaming → Draft → Prop}
    (h : Leads x m d (fun a m' d' => Leads (f a) m' d' done failed) failed) :
    Leads (x >>= f) m d done failed :=
  Shader.Leads.bind h

theorem pure {a : α} (h : done a m d) : Leads (Pure.pure a : Linking α) m d done failed :=
  h

theorem get {done : Renaming → Renaming → Draft → Prop} (h : done m m d) :
    Leads (MonadState.get : Linking Renaming) m d done failed :=
  h

theorem modify {g : Renaming → Renaming} {done : PUnit → Renaming → Draft → Prop}
    (h : done ⟨⟩ (g m) d) :
    Leads (modify g : Linking PUnit) m d done failed :=
  h

theorem throw {err : EditError} (h : failed d) :
    Leads (MonadExcept.throw err : Linking α) m d done failed :=
  h

theorem edit {e : Editing α} (h : Shader.Leads e d (fun a d' => done a m d') failed) :
    Leads (edit e) m d done failed :=
  Shader.Leads.bind h

theorem map {g : α → β} {done : β → Renaming → Draft → Prop}
    (h : Leads x m d (fun a => done (g a)) failed) : Leads (g <$> x) m d done failed :=
  Shader.Leads.bind h

-- The invariant is about what has been done of the list.
theorem forM {g : α → Linking PUnit} {l : List α} (inv : List α → Renaming → Draft → Prop)
    (step : ∀ past a rest m d, l = past ++ a :: rest → inv past m d →
      Leads (g a) m d (fun _ => inv (past ++ [a])) failed)
    (h : inv [] m d) : Leads (l.forM g) m d (fun _ => inv l) failed := by
  suffices go : ∀ rest past m d, l = past ++ rest → inv past m d →
      Leads (rest.forM g) m d (fun _ => inv l) failed from go l [] m d rfl h
  intro rest
  induction rest
  case nil =>
    intro past m d hl h
    exact pure (by simpa [hl] using h)
  case cons a rest hi =>
    intro past m d hl h
    refine bind <| (step past a rest m d hl h).weaken fun _ m' d' h' => ?_
    exact hi (past ++ [a]) m' d' (by simpa using hl) h'

theorem mapM {g : α → Linking β} {l : List α} (inv : List α → List β → Renaming → Draft → Prop)
    (step : ∀ past a rest bs m d, l = past ++ a :: rest → inv past bs m d →
      Leads (g a) m d (fun b => inv (past ++ [a]) (bs ++ [b])) failed)
    (h : inv [] [] m d) : Leads (l.mapM g) m d (inv l) failed := by
  suffices go : ∀ rest past bs m d, l = past ++ rest → inv past bs m d →
      Leads (rest.mapM g) m d (fun bs' => inv l (bs ++ bs')) failed from go l [] [] m d rfl h
  intro rest
  induction rest
  case nil =>
    intro past bs m d hl h
    rw [mapM_nil]
    exact pure (by simpa [hl] using h)
  case cons a rest hi =>
    intro past bs m d hl h
    rw [mapM_cons]
    refine bind <| (step past a rest bs m d hl h).weaken fun b m' d' h' => ?_
    refine bind <| (hi (past ++ [a]) (bs ++ [b]) m' d' (by simpa using hl) h').weaken
      fun _ _ _ h => ?_
    exact pure (by simpa using h)

theorem filterMapM {g : α → Linking (Option β)} {l : List α}
    (inv : List α → List β → Renaming → Draft → Prop)
    (step : ∀ past a rest bs m d, l = past ++ a :: rest → inv past bs m d →
      Leads (g a) m d (fun b => inv (past ++ [a]) (bs ++ b.toList)) failed)
    (h : inv [] [] m d) : Leads (l.filterMapM g) m d (inv l) failed := by
  suffices go : ∀ rest past bs m d, l = past ++ rest → inv past bs m d →
      Leads (rest.filterMapM g) m d (fun bs' => inv l (bs ++ bs')) failed from go l [] [] m d rfl h
  intro rest
  induction rest
  case nil =>
    intro past bs m d hl h
    rw [filterMapM_nil]
    exact pure (by simpa [hl] using h)
  case cons a rest hi =>
    intro past bs m d hl h
    rw [filterMapM_cons]
    refine bind <| (step past a rest bs m d hl h).weaken fun b m' d' h' => ?_
    have hr := hi (past ++ [a]) (bs ++ b.toList) m' d' (by simpa using hl) h'
    cases b
    case none => simpa using hr
    case some b => exact bind <| hr.weaken fun _ _ _ h => pure (by simpa using h)

end Leads

def only (sec : Section) (ss : List Statement) : Section → List Statement :=
  fun sec' => if sec = sec' then ss else []

theorem only_append (sec : Section) (ss ts : List Statement) :
    only sec (ss ++ ts) = fun sec' => only sec ss sec' ++ only sec ts sec' := by
  funext sec'
  unfold only
  split <;> simp

theorem only_nil (sec : Section) : only sec [] = fun _ => [] := by
  funext sec'
  simp [only]

theorem map_only {f : Statement → Statement} (sec : Section) (ss : List Statement) :
    (fun sec' => (only sec ss sec').map f) = only sec (ss.map f) := by
  funext sec'
  unfold only
  split <;> rfl

-- Linking has come from `m` and `d` to `m'` and `d'`. It appended `new` to the sections of the
-- draft and `fs` to its functions.
structure Advance (m : Renaming) (d : Draft) (new : Section → List Statement)
    (fs : List FunctionDraft) (m' : Renaming) (d' : Draft) : Prop where
  extended  : m.Extends m'
  header    : { d'.header with bound := d.bound } = d.header
  sections  : ∀ sec, d'.inSection sec = d.inSection sec ++ new sec
  functions : d'.functions = d.functions ++ fs

abbrev Quiet (m : Renaming) (d : Draft) : Renaming → Draft → Prop :=
  Advance m d (fun _ => []) []

namespace Advance

variable {m m' m'' : Renaming} {d d' d'' : Draft} {new new' : Section → List Statement}
  {fs fs' : List FunctionDraft}

theorem refl (m : Renaming) (d : Draft) : Quiet m d m d :=
  ⟨.refl m, rfl, by simp, by simp⟩

theorem trans (h : Advance m d new fs m' d') (h' : Advance m' d' new' fs' m'' d'') :
    Advance m d (fun sec => new sec ++ new' sec) (fs ++ fs') m'' d'' where
  extended := h.extended.trans h'.extended
  header := by
    have h₁ := h.header
    have h₂ := h'.header
    simp only [Draft.header, Header.mk.injEq] at h₁ h₂ ⊢
    simp [h₁, h₂]
  sections sec := by simp [h'.sections, h.sections]
  functions := by simp [h'.functions, h.functions]

theorem subset (h : Advance m d new fs m' d') (sec : Section) :
    d.inSection sec ⊆ d'.inSection sec := by
  rw [h.sections]
  exact subset_append_left ..

theorem quiet (h : Advance m d new fs m' d') (h' : Quiet m' d' m'' d'') :
    Advance m d new fs m'' d'' := by
  simpa using h.trans h'

theorem push (m : Renaming) (d : Draft) (s : Statement) (sec : Section) :
    Advance m d (only sec [s]) [] m (d.push s sec) :=
  ⟨.refl m, by cases sec <;> rfl, d.inSection_push s sec, by simp⟩

theorem noteType (m : Renaming) (d : Draft) (s : Statement) : Quiet m d m (d.noteType s) :=
  ⟨.refl m, by rw [Draft.header_noteType]; rfl, by simp, by simp⟩

end Advance

variable {host d : Draft} {request : Id} {settled shared : List Id} {held : List Definition}
  {m : Renaming}

theorem rename_leads (x : Id) (h : Linked host request settled shared held m d) :
    Leads (rename x) m d (fun y m' d' => Quiet m d m' d' ∧ m'[x]? = some y
      ∧ Linked host request settled shared held m' d') (Abandoned host request) := by
  refine .bind <| .get ?_
  split
  case h_1 y hx => exact .pure ⟨.refl m d, hx, h⟩
  case h_2 hx =>
    refine .bind <| .edit <| .bind <| .get ?_
    split
    case isFalse => exact .throw h.abandoned
    case isTrue hb =>
      refine .bind <| .set <| .pure <| .bind <| .modify <| .pure ⟨?_, by simp, h.allocate x hb⟩
      exact ⟨.insert hx, rfl, fun sec => by cases sec <;> simp [Draft.inSection], by simp⟩

section

variable {inv : Renaming → Draft → Prop} {failed : Draft → Prop}

-- Renaming one id keeps the invariant and adds nothing to the draft.
variable (step : ∀ x m d, inv m d → Leads (rename x) m d
  (fun y m' d' => Quiet m d m' d' ∧ m'[x]? = some y ∧ inv m' d') failed)

include step

theorem mapM_rename_leads (x : Option Id) (h : inv m d) :
    Leads (x.mapM rename) m d (fun y m' d' => Quiet m d m' d' ∧ y = x.map m'.image
      ∧ (∀ z ∈ x, ∃ w, m'[z]? = some w) ∧ inv m' d') failed := by
  cases x
  case none => exact .pure ⟨.refl m d, rfl, by simp, h⟩
  case some x =>
    rw [Option.mapM_some]
    refine .map <| (step x m d h).weaken fun y m' d' ⟨hq, hx, h⟩ => ⟨hq, ?_, ?_, h⟩
    · rw [Option.map_some, Renaming.image_of_getElem? hx]
    · simpa using ⟨y, hx⟩

theorem mapM_operands_leads (l : List (Word × Nat)) (isId : Nat → Bool) (h : inv m d) :
    Leads (l.mapM fun (w, k) => if isId k then rename w else pure w) m d
      (fun ws m' d' => Quiet m d m' d' ∧ ws = (l.map fun (w, k) => if isId k then m'.image w else w)
        ∧ (∀ w k, (w, k) ∈ l → isId k = true → ∃ y, m'[w]? = some y) ∧ inv m' d') failed := by
  refine .mapM (fun past ws m' d' => Quiet m d m' d'
    ∧ ws = (past.map fun (w, k) => if isId k then m'.image w else w)
    ∧ (∀ w k, (w, k) ∈ past → isId k = true → ∃ y, m'[w]? = some y)
    ∧ inv m' d') ?_ ⟨.refl m d, rfl, by simp, h⟩
  intro past (w, k) rest ws m₁ d₁ _ ⟨hq, hws, hpast, h₁⟩
  dsimp only
  split
  case isFalse hk =>
    refine .pure ⟨hq, by simp [hws, hk], fun v j hv hj => ?_, h₁⟩
    rw [mem_append, mem_singleton] at hv
    cases hv
    case inl hv => exact hpast v j hv hj
    case inr hv =>
      obtain ⟨rfl, rfl⟩ := hv
      exact absurd hj hk
  case isTrue hk =>
    refine (step w m₁ d₁ h₁).weaken fun y m₂ d₂ ⟨hq', hy, h₂⟩ =>
      ⟨hq.quiet hq', ?_, fun v j hv hj => ?_, h₂⟩
    · -- Ids that were met before still stand for the same.
      have hsame : (past.map fun (w, k) => if isId k then m₂.image w else w) = ws := by
        rw [hws]
        refine map_congr_left fun (v, j) hv => ?_
        dsimp only
        split
        case isTrue hj =>
          have ⟨z, hz⟩ := hpast v j hv hj
          exact Renaming.image_eq hq'.extended hz
        case isFalse => rfl
      simp [hsame, hk, Renaming.image_of_getElem? hy]
    · rw [mem_append, mem_singleton] at hv
      cases hv
      case inl hv =>
        have ⟨z, hz⟩ := hpast v j hv hj
        exact ⟨z, hq'.extended v z hz⟩
      case inr hv =>
        obtain ⟨rfl, rfl⟩ := hv
        exact ⟨y, hy⟩

theorem mapIdsM_leads (s : Statement) (h : inv m d) :
    Leads (s.mapIdsM rename) m d (fun s' m' d' => Quiet m d m' d'
      ∧ { s' with origin := none } = s.rename m'.image ∧ m'.Covers s ∧ inv m' d') failed := by
  refine .bind <| (mapM_rename_leads step s.resultType h).weaken
    fun type m₁ d₁ ⟨hq₁, ht, hct, h₁⟩ => ?_
  refine .bind <| (mapM_rename_leads step s.resultId h₁).weaken
    fun id m₂ d₂ ⟨hq₂, hr, hcr, h₂⟩ => ?_
  refine .bind <| (mapM_operands_leads step s.operands.zipIdx s.isId h₂).weaken
    fun operands m₃ d₃ ⟨hq₃, ho, hco, h₃⟩ => .pure ⟨(hq₁.quiet hq₂).quiet hq₃, ?_, ?_, h₃⟩
  · have ht' : s.resultType.map m₃.image = type := by
      rw [ht]
      refine Option.map_congr fun x hx => ?_
      have ⟨y, hy⟩ := hct x hx
      exact Renaming.image_eq (hq₂.extended.trans hq₃.extended) hy
    have hr' : s.resultId.map m₃.image = id := by
      rw [hr]
      refine Option.map_congr fun x hx => ?_
      have ⟨y, hy⟩ := hcr x hx
      exact Renaming.image_eq hq₃.extended hy
    rw [Statement.rename, ht', hr', ho]
  · intro x hx
    rw [Statement.mem_ids_iff] at hx
    obtain hx | hx | ⟨k, hx, hk⟩ := hx
    · have ⟨y, hy⟩ := hct x hx
      exact ⟨y, hq₃.extended x y (hq₂.extended x y hy)⟩
    · have ⟨y, hy⟩ := hcr x hx
      exact ⟨y, hq₃.extended x y hy⟩
    · exact hco x k (mem_zipIdx_iff_getElem?.mpr hx) hk

end

-- The statements `ss` were taken over as `ss'`, which is not in the draft yet.
structure Taken (host : Draft) (request : Id) (settled shared : List Id) (held : List Definition)
    (m : Renaming) (d : Draft) (ss ss' : List Statement) (m' : Renaming) (d' : Draft) : Prop where
  quiet  : Quiet m d m' d'
  image  : ss' = ss.map (Statement.rename m'.image)
  covers : ∀ s ∈ ss, m'.Covers s
  linked : Linked host request (ss.filterMap Statement.resultId ++ settled) shared
    (ss'.flatMap Statement.defines ++ held) m' d'

def Unsettled (settled : List Id) (ss : List Statement) : Prop :=
  (ss.filterMap Statement.resultId).Nodup ∧ ∀ x ∈ ss.filterMap Statement.resultId, x ∉ settled

theorem unsettled_append_iff {ss ts : List Statement} : Unsettled settled (ss ++ ts) ↔
    Unsettled settled ss ∧ Unsettled (ss.filterMap Statement.resultId ++ settled) ts := by
  simp only [Unsettled, filterMap_append, nodup_append, mem_append, or_imp, forall_and, not_or]
  grind

theorem statement_leads (s : Statement) (h : Linked host request settled shared held m d)
    (hs : Unsettled settled [s]) :
    Leads (statement s) m d (fun s' => Taken host request settled shared held m d [s] [s'])
      (Abandoned host request) := by
  refine .bind <| (mapIdsM_leads (fun x _ _ => rename_leads x) s h).weaken
    fun s' m' d' ⟨hq, hs', hc, h'⟩ => ?_
  refine .bind <| .edit <| .modify <| .pure
    ⟨hq.quiet (.noteType m' d' s'), by simp [hs'], by simpa using hc, ?_⟩
  have hid : s'.resultId = s.resultId.map m'.image := congrArg Statement.resultId hs'
  have hl : Linked host request ([s].filterMap Statement.resultId ++ settled) shared
      (s'.resultId.toList.map (·, none) ++ held) m' d' := by
    cases hx : s.resultId
    case none => simpa [hid, hx] using h'
    case some x =>
      have ⟨y, hy⟩ := hc x (Statement.mem_ids_iff.mpr (.inr (.inl hx)))
      have hn : x ∉ settled := hs.right x (by simp [hx])
      simpa [hid, hx, Renaming.image_of_getElem? hy] using h'.settle hy hn
  rw [flatMap_singleton]
  exact hl.noteType

namespace Taken

variable {ss ss' ts ts' : List Statement} {m' m'' : Renaming} {d' d'' : Draft}

theorem nil (h : Linked host request settled shared held m d) :
    Taken host request settled shared held m d [] [] m d :=
  ⟨.refl m d, rfl, by simp, h⟩

theorem image_of_extends (h : Taken host request settled shared held m d ss ss' m' d')
    (he : m'.Extends m'') : ss' = ss.map (Statement.rename m''.image) := by
  rw [h.image]
  exact map_congr_left fun s hs => ((h.covers s hs).rename_eq he).symm

theorem append (h : Taken host request settled shared held m d ss ss' m' d')
    (h' : Taken host request (ss.filterMap Statement.resultId ++ settled) shared
      (ss'.flatMap Statement.defines ++ held) m' d' ts ts' m'' d'') :
    Taken host request settled shared held m d (ss ++ ts) (ss' ++ ts') m'' d'' where
  quiet := h.quiet.quiet h'.quiet
  image := by
    rw [map_append, ← h'.image, ← h.image_of_extends h'.quiet.extended]
  covers s hs := by
    rw [mem_append] at hs
    cases hs
    case inl hs => exact (h.covers s hs).mono h'.quiet.extended
    case inr hs => exact h'.covers s hs
  linked := by
    refine (h'.linked.settle_all ?_).perm ?_
    · simp only [filterMap_append, append_assoc]
      exact (perm_append_comm_assoc ..).subset
    · simp only [flatMap_append, append_assoc]
      exact perm_append_comm_assoc ..

end Taken

theorem mapM_statement_leads {ss : List Statement} (h : Linked host request settled shared held m d)
    (hs : Unsettled settled ss) :
    Leads (ss.mapM statement) m d (Taken host request settled shared held m d ss)
      (Abandoned host request) := by
  refine .mapM (Taken host request settled shared held m d) ?_ (.nil h)
  intro past s rest ss' m₁ d₁ heq h₁
  rw [heq, unsettled_append_iff, ← singleton_append, unsettled_append_iff] at hs
  exact (statement_leads s h₁.linked hs.right.left).weaken fun s' m₂ d₂ h₂ => h₁.append h₂

theorem block_leads (b : Block) (h : Linked host request settled shared held m d)
    (hs : Unsettled settled b.statements) :
    Leads (block b) m d (fun b' m' d' => b' = b.rename m'.image
      ∧ Taken host request settled shared held m d b.statements b'.statements m' d')
      (Abandoned host request) := by
  rw [Block.statements, ← singleton_append, unsettled_append_iff] at hs
  refine .bind <| (statement_leads b.labelStatement h hs.left).weaken fun label m₁ d₁ h₁ => ?_
  refine .bind <| (mapM_statement_leads h₁.linked hs.right).weaken fun body m₂ d₂ h₂ => .pure ?_
  have ht := h₁.append h₂
  have hl : label = b.labelStatement.rename m₂.image := by simpa using (cons.inj ht.image).left
  have hb : (⟨label.resultId.getD b.label, body⟩ : Block) = b.rename m₂.image := by
    rw [hl, h₂.image]
    rfl
  rw [ht.image] at ht
  exact ⟨hb, hb ▸ ht⟩

theorem mapM_block_leads {bs : List Block} (h : Linked host request settled shared held m d)
    (hs : Unsettled settled (bs.flatMap Block.statements)) :
    Leads (bs.mapM block) m d (fun bs' m' d' => bs' = bs.map (Block.rename m'.image)
      ∧ Taken host request settled shared held m d (bs.flatMap Block.statements)
        (bs'.flatMap Block.statements) m' d') (Abandoned host request) := by
  refine .mapM (fun past bs' m' d' => bs' = past.map (Block.rename m'.image)
    ∧ Taken host request settled shared held m d (past.flatMap Block.statements)
      (bs'.flatMap Block.statements) m' d') ?_ ⟨rfl, .nil h⟩
  intro past b rest bs' m₁ d₁ heq ⟨hb, h₁⟩
  rw [heq, flatMap_append, unsettled_append_iff, flatMap_cons, unsettled_append_iff] at hs
  refine (block_leads b h₁.linked hs.right.left).weaken fun b' m₂ d₂ ⟨hb', h₂⟩ => ?_
  have ht := h₁.append h₂
  refine ⟨?_, by simpa using ht⟩
  have hsame : past.map (Block.rename m₂.image) = bs' := by
    rw [hb]
    refine map_congr_left fun c hc => h₂.quiet.extended.block_rename_eq fun s hs => ?_
    exact h₁.covers s (mem_flatMap.mpr ⟨c, hc, hs⟩)
  rw [map_append, hsame, hb', map_singleton]

end Linking
end Shader
