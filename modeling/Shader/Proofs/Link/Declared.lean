import Shader.Proofs.Draft.Declared
import Shader.Proofs.Link.Statement

namespace Shader

open List

theorem Text.Literal.wordCount_congr {l l' : List Word} (hl : l'.length = l.length)
    (h : ∀ k < wordCount l, l'[k]? = l[k]?) : wordCount l' = wordCount l := by
  induction l generalizing l'
  case nil => rw [length_eq_zero_iff.mp hl]
  case cons w rest hi =>
    obtain ⟨w', rest', rfl⟩ := exists_cons_of_length_eq_add_one hl
    have hrest (hlong : ¬(w.bytes.takeWhile (· ≠ 0)).length < 4) : wordCount (w :: rest)
        = wordCount rest + 1 := by
      rw [wordCount, span, if_neg hlong, wordCount]
    have hpos : 0 < wordCount (w :: rest) := by
      by_cases hshort : (w.bytes.takeWhile (· ≠ 0)).length < 4
      · rw [wordCount, span, if_pos hshort]
        exact Nat.one_pos
      · rw [hrest hshort]
        exact Nat.succ_pos _
    obtain rfl : w' = w := by simpa using h 0 hpos
    by_cases hshort : (w'.bytes.takeWhile (· ≠ 0)).length < 4
    · rw [wordCount, span, if_pos hshort, wordCount, span, if_pos hshort]
    · rw [hrest hshort] at h ⊢
      have htail : wordCount rest' = wordCount rest :=
        hi (by simpa using hl) fun k hk => by simpa using h (k + 1) (by omega)
      rw [← htail, wordCount, span, if_neg hshort, wordCount]

namespace Statement

variable {f : Id → Id} {s : Statement}

theorem length_operands_rename : (s.rename f).operands.length = s.operands.length := by
  simp [rename]

-- Renaming does not make ids of literals. Which operands are ids may depend on literals only.
theorem isId_rename (k : Nat) : (s.rename f).isId k = s.isId k := by
  cases ho : s.op?
  case none => simp [isId, ho]
  case some op =>
    rw [isId_eq (s := s.rename f) ho, isId_eq ho]
    cases hids : op.ids
    case masked n => simp [OperandIds.isId, length_operands_rename]
    case entryPoint =>
      have hcount : Text.Literal.wordCount ((s.rename f).operands.drop 2)
          = Text.Literal.wordCount (s.operands.drop 2) := by
        refine Text.Literal.wordCount_congr (by simp [length_operands_rename]) fun k hk => ?_
        have hk : s.isId (2 + k) = false := by
          rw [isId_eq ho, hids]
          simp [OperandIds.isId]
          omega
        simp [getElem?_operands_rename, hk]
      simp only [OperandIds.isId, hcount]
    all_goals rfl

theorem exists_of_mem_refers_rename {x : Id} (h : x ∈ (s.rename f).refers) :
    ∃ y ∈ s.refers, f y = x := by
  obtain h | ⟨k, h, hk⟩ := mem_refers_iff.mp h
  · obtain ⟨y, hy, rfl⟩ := Option.map_eq_some_iff.mp h
    exact ⟨y, mem_refers_iff.mpr (.inl hy), rfl⟩
  · rw [isId_rename] at hk
    rw [getElem?_operands_rename] at h
    obtain ⟨y, hy, rfl⟩ := Option.map_eq_some_iff.mp h
    rw [if_pos hk]
    exact ⟨y, mem_refers_iff.mpr (.inr ⟨k, hy, hk⟩), rfl⟩

end Statement

def Renaming.Maps (m : Renaming) (xs ys : List Id) : Prop :=
  ∀ x ∈ xs, ∃ y ∈ ys, m[x]? = some y

namespace Renaming.Maps

variable {m m' : Renaming} {xs ys ys' : List Id} {x y : Id}

theorem mono (h : m.Maps xs ys) (hm : m.Extends m') (hy : ys ⊆ ys') : m'.Maps xs ys' := by
  intro x hx
  obtain ⟨y, hmem, hxy⟩ := h x hx
  exact ⟨y, hy hmem, hm x y hxy⟩

theorem append (h : m.Maps xs ys) (hx : m[x]? = some y) (hy : y ∈ ys) : m.Maps (xs ++ [x]) ys := by
  simp only [Maps, forall_mem_append, forall_mem_singleton]
  exact ⟨h, y, hy, hx⟩

-- Even if `x` stood for something else.
theorem insert (h : m.Maps xs ys) (hy : y ∈ ys) : Renaming.Maps (m.insert x y) (xs ++ [x]) ys := by
  refine append (fun z hz => ?_) (by simp) hy
  obtain ⟨w, hw, hzw⟩ := h z hz
  by_cases hxz : x = z
  · exact ⟨y, hy, by simp [hxz]⟩
  · exact ⟨w, hw, by simpa [Std.TreeMap.getElem?_insert, hxz] using hzw⟩

end Renaming.Maps

namespace Linking

variable {α β : Type} {x : Linking α} {f : α → Linking β} {m m' : Renaming} {d d' h : Draft}
  {s : Statement}

theorem Quiet.appends (hq : Quiet m d m' d') : d.Appends d' := by
  have hsame (sec : Section) : d'.inSection sec = d.inSection sec := by simpa using hq.sections sec
  have himports : d'.imports = d.imports := hsame .imports
  have hdebug : d'.debug = d.debug := hsame .debug
  exact Draft.appends_of_eq (by rw [Draft.namedIds, himports, hdebug]; rfl) (hsame .globals)

def Adds (x : Linking α) : Prop :=
  ∀ m (d : Draft), Leads x m d (fun _ _ d' => d.Appends d') fun _ => True

theorem Adds.pure (a : α) : Adds (Pure.pure a : Linking α) :=
  fun _ d => .pure (.refl d)

theorem Adds.bind (hx : Adds x) (hf : ∀ a, Adds (f a)) : Adds (x >>= f) :=
  fun m d => .bind <| (hx m d).weaken fun a m₁ d₁ h₁ => (hf a m₁ d₁).weaken
    fun _ _ _ h₂ => h₁.trans h₂

theorem Adds.modify {g : Draft → Draft} (hg : ∀ d : Draft, d.Appends (g d)) :
    Adds (edit (modify g)) :=
  fun _ d => .edit <| .modify (hg d)

theorem Adds.forM {g : α → Linking PUnit} {l : List α} (hg : ∀ a, Adds (g a)) : Adds (l.forM g) :=
  fun _ d => .forM (fun _ _ d' => d.Appends d')
    (fun _ a _ m₁ d₁ _ h₁ => (hg a m₁ d₁).weaken fun _ _ _ h₂ => h₁.trans h₂) (.refl d)

theorem Adds.mapM {g : α → Linking β} {l : List α} (hg : ∀ a, Adds (g a)) : Adds (l.mapM g) :=
  fun _ d => .mapM (fun _ _ _ d' => d.Appends d')
    (fun _ a _ _ m₁ d₁ _ h₁ => (hg a m₁ d₁).weaken fun _ _ _ h₂ => h₁.trans h₂) (.refl d)

theorem rename_quiet (x : Id) :
    Leads (rename x) m d (fun y m' d' => Quiet m d m' d' ∧ m'[x]? = some y ∧ True)
      fun _ => True := by
  refine .bind <| .get ?_
  split
  case h_1 y hx => exact .pure ⟨.refl m d, hx, trivial⟩
  case h_2 hx =>
    refine .bind <| .edit <| Draft.allocate_leads.mono (fun id d' ⟨_, hd, _⟩ => ?_)
      fun _ _ => trivial
    refine .bind <| .modify <| .pure ⟨?_, by simp, trivial⟩
    rw [hd]
    exact ⟨.insert hx, rfl, fun sec => by cases sec <;> simp [Draft.inSection], by simp⟩

theorem statement_quiet (s : Statement) : Leads (statement s) m d
    (fun s' m' d' => Quiet m d m' d' ∧ s' = s.rename m'.image ∧ m'.Covers s) fun _ => True := by
  have hids : Leads (s.mapIdsM rename) m d (fun s' m' d' => Quiet m d m' d'
      ∧ { s' with origin := none } = s.rename m'.image ∧ m'.Covers s ∧ True) fun _ => True :=
    mapIdsM_leads (fun x _ _ _ => rename_quiet x) s trivial
  refine .bind <| hids.weaken fun s' m' d' ⟨hq, hs', hc, _⟩ => ?_
  exact .bind <| .edit <| .modify <| .pure ⟨hq.quiet (.noteType m' d' s'), hs', hc⟩

theorem statement_adds (s : Statement) : Adds (statement s) :=
  fun _ _ => (statement_quiet s).weaken fun _ _ _ h => Quiet.appends h.left

theorem capability_adds (name : String) (s : Statement) : Adds (edit (capability name s)) := by
  intro m d
  unfold capability
  split
  case h_1 => exact .edit <| .throw trivial
  case h_2 =>
    split
    case isTrue => exact .edit <| .pure (.refl d)
    case isFalse =>
      refine .edit <| .modify ?_
      unfold Draft.addCapabilityWord
      split
      case isTrue => exact .refl d
      case isFalse => exact Draft.appends_of_eq rfl rfl

theorem addExtensions_appends (ss : List Statement) (d : Draft) :
    d.Appends (ss.foldl (fun d s => d.addExtension s.operands) d) := by
  induction ss generalizing d
  case nil => exact .refl d
  case cons s ss hi =>
    have hs : d.Appends (d.addExtension s.operands) := by
      unfold Draft.addExtension
      split
      case isTrue => exact .refl d
      case isFalse => exact Draft.appends_of_eq rfl rfl
    exact hs.trans (hi _)

theorem annotation_adds (s : Statement) : Adds <| annotation s := by
  intro m d
  unfold annotation
  split
  case isTrue => exact .pure (.refl d)
  case isFalse =>
    have hpush (s' : Statement) : Adds (edit (modify (·.push s' .annotations))) :=
      .modify fun _ => Draft.appends_of_eq rfl rfl
    exact (statement_adds s).bind hpush m d

theorem listVariables_appends (new : List Id) (d : Draft) : d.Appends (listVariables new d) := by
  unfold listVariables
  split
  case isTrue => exact Draft.appends_of_eq rfl rfl
  case isFalse => exact .refl d

theorem function_adds (f : FunctionDraft) : Adds (function f) := by
  refine .bind (statement_adds _) fun _ => .bind (.mapM statement_adds)
      fun _ => .bind (.mapM fun b => ?_) fun _ =>
    .bind (statement_adds _) fun _ => .modify fun _ => Draft.appends_of_eq rfl rfl
  exact .bind (statement_adds _) fun _ => .bind (.mapM statement_adds) fun _ => .pure _

structure Carried (ids : Draft → List Id) (d : Draft) (xs : List Id) (m : Renaming) (d' : Draft) :
    Prop where
  appends : d.Appends d'
  maps    : m.Maps xs (ids d')

theorem Carried.trans {ids : Draft → List Id} {xs ys : List Id} {m'' : Renaming} {d'' : Draft}
    (hc : Carried ids d xs m' d') (hc' : Carried ids d' ys m'' d'') : Carried ids d ys m'' d'' :=
  ⟨hc.appends.trans hc'.appends, hc'.maps⟩

variable {xs : List Id}

theorem importSet_carried (s : Statement) (hm : m.Maps xs d.namedIds) :
    Leads (importSet s) m d (fun _ => Carried Draft.namedIds d (xs ++ s.resultId.toList))
      fun _ => True := by
  unfold importSet
  cases s.resultId
  case none => exact .pure ⟨.refl d, by simpa using hm⟩
  case some x =>
    refine .bind <| .edit <| .get ?_
    dsimp only
    split
    case h_1 id hid =>
      obtain ⟨t, ht, hid⟩ := Option.bind_eq_some_iff.mp hid
      have hmem : id ∈ d.namedIds :=
        mem_filterMap.mpr ⟨t, mem_append_left _ (mem_of_find?_eq_some ht), hid⟩
      exact .bind <| .pure <| .modify ⟨.refl d, hm.insert hmem⟩
    case h_2 =>
      refine .bind <| .edit <| .bind <| Draft.allocate_prepares.weaken fun id d₁ h₁ => .bind <|
        .modify <| .pure ?_
      have hpush : d.Appends (d₁.push (.new .extInstImport none (some id) s.operands)
          .imports) := by
        refine h₁.toAppends.trans (Draft.appends_of_named ?_ rfl)
        exact (((sublist_append_left ..).append_right _).filterMap _).subset
      refine .modify ⟨hpush, (hm.mono (.refl m) hpush.named).insert ?_⟩
      exact mem_filterMap.mpr ⟨_, mem_append_left _ (mem_append_right _ mem_cons_self), rfl⟩

theorem string_carried (hs : s.is .string = true) (hm : m.Maps xs d.namedIds) :
    Leads (string s) m d (fun _ => Carried Draft.namedIds d (xs ++ s.resultId.toList))
      fun _ => True := by
  refine .bind <| (statement_quiet s).weaken fun s' m₁ d₁ ⟨hq, hs', hc⟩ => .edit <| .modify ?_
  have hfilter : [s'].filter (·.is .string) = [s'] := by
    have hs' : s'.is .string = true := by rw [hs']; exact hs
    simp [hs']
  have hnamed : (d₁.push s' .debug).namedIds = d₁.namedIds ++ s'.resultId.toList := by
    show (d₁.imports ++ (d₁.debug ++ [s']).filter (·.is .string)).filterMap _ = _
    rw [filter_append, hfilter, ← append_assoc, Statement.filterMap_resultId_append]
    rfl
  have hpush : d.Appends (d₁.push s' .debug) := by
    refine (Quiet.appends hq).trans (Draft.appends_of_named ?_ rfl)
    rw [hnamed]
    exact subset_append_left ..
  have hm := hm.mono hq.extended hpush.named
  refine ⟨hpush, ?_⟩
  cases hr : s.resultId
  case none => simpa using hm
  case some x =>
    obtain ⟨y, hy⟩ := hc x (Statement.mem_ids_iff.mpr (.inr (.inl hr)))
    refine hm.append hy ?_
    rw [hnamed, hs', Statement.rename, hr]
    simp [Renaming.image_of_getElem? hy]

theorem global_carried (name : String) (hs : s.refers ⊆ xs) (hm : m.Maps xs d.declaredIds) :
    Leads (global h name s) m d (fun _ => Carried Draft.declaredIds d (xs ++ s.resultId.toList))
      fun _ => True := by
  refine .bind <| (statement_quiet { s with resultId := none }).weaken ?_
  rintro unnamed m₁ d₁ ⟨hq, hu, _⟩
  have h₁ : d.Appends d₁ := Quiet.appends hq
  have hm₁ : m₁.Maps xs d₁.declaredIds := hm.mono hq.extended h₁.declared
  -- What the statement refers to was carried over before it.
  have hrefers : unnamed.refers ⊆ d₁.declaredIds := by
    intro x hx
    rw [hu] at hx
    obtain ⟨y, hy, rfl⟩ := Statement.exists_of_mem_refers_rename hx
    obtain ⟨z, hz, hyz⟩ := hm₁ y (hs hy)
    rwa [Renaming.image_of_getElem? hyz]
  split
  case h_1 hr =>
    have hpush := Draft.appends_push hrefers
    refine .bind <| .edit <| .modify <| .pure ⟨h₁.trans hpush, ?_⟩
    simpa [hr] using hm₁.mono (.refl m₁) hpush.declared
  case h_2 x hr =>
    rw [hr]
    split
    case h_2 => exact .throw trivial
    case h_1 op ho =>
      refine .bind <| .get ?_
      split
      case isTrue =>
        have hnew : (Statement.new op unnamed.resultType none unnamed.operands).refers
            = unnamed.refers := by
          rw [hu, Statement.new, Op.number_of_ofNumber? ho]
          rfl
        refine .bind <| .edit <| (Draft.findOrAddGlobal_prepares (hnew ▸ hrefers)).weaken ?_
        rintro id d₂ ⟨h₂, hid⟩
        refine .bind <| .modify <| .pure ⟨h₁.trans h₂.toAppends, ?_⟩
        exact (hm₁.mono (.refl m₁) h₂.declared).insert hid
      case isFalse =>
        refine .bind <| (rename_quiet x).weaken ?_
        rintro id m₂ d₂ ⟨hq₂, hid, _⟩
        refine .bind <| .edit <| .modify <| .pure ?_
        have h₂ : d₁.Appends (d₂.noteType { unnamed with resultId := some id }) :=
          (Quiet.appends hq₂).trans (Draft.appends_noteType ..)
        have h₃ := h₂.trans (Draft.appends_push (s := { unnamed with resultId := some id })
          (Subset.trans hrefers h₂.declared))
        refine ⟨h₁.trans h₃, (hm₁.mono hq₂.extended h₃.declared).append hid ?_⟩
        exact mem_append_right _ (mem_filterMap.mpr ⟨_, mem_append_right _ mem_cons_self, rfl⟩)

theorem forM_carried {g : Statement → Linking PUnit} {ids : Draft → List Id} (ss : List Statement)
    (step : ∀ s ∈ ss, ∀ xs m d, m.Maps xs (ids d) →
      Leads (g s) m d (fun _ => Carried ids d (xs ++ s.resultId.toList)) fun _ => True)
    (hm : m.Maps xs (ids d)) :
    Leads (ss.forM g) m d (fun _ => Carried ids d (xs ++ ss.filterMap Statement.resultId))
      fun _ => True := by
  refine .forM (fun past => Carried ids d (xs ++ past.filterMap Statement.resultId)) ?_
    ⟨.refl d, by simpa using hm⟩
  intro past s rest m₁ d₁ heq h₁
  have hs : s ∈ ss := heq ▸ mem_append_right _ mem_cons_self
  refine (step s hs _ m₁ d₁ h₁.maps).weaken fun _ m₂ d₂ h₂ => ?_
  rw [Statement.filterMap_resultId_append, ← append_assoc]
  exact h₁.trans h₂

theorem filterMapM_global_carried (name : String) {ss : List Statement}
    (hs : Statement.InOrder xs ss) (hm : m.Maps xs d.declaredIds) :
    Leads (ss.filterMapM (global h name)) m d
      (fun _ => Carried Draft.declaredIds d (xs ++ ss.filterMap Statement.resultId))
        fun _ => True := by
  refine .filterMapM (fun past _ =>
    Carried Draft.declaredIds d (xs ++ past.filterMap Statement.resultId)) ?_
    ⟨.refl d, by simpa using hm⟩
  intro past s rest _ m₁ d₁ heq h₁
  rw [heq, Statement.inOrder_append] at hs
  refine (global_carried name hs.right.left h₁.maps).weaken fun _ m₂ d₂ h₂ => ?_
  rw [Statement.filterMap_resultId_append, ← append_assoc]
  exact h₁.trans h₂

theorem helper_adds (name : String) (hh : h.DeclaredBeforeUse) : Adds (helper name h) := by
  intro m d
  refine .bind <| (Adds.forM (capability_adds name) m d).weaken fun _ m₁ d₁ h₁ => ?_
  refine .bind <| .edit <| .modify ?_
  have h₂ := h₁.trans (addExtensions_appends h.extensions d₁)
  generalize h.extensions.foldl (fun d s => d.addExtension s.operands) d₁ = d₂ at h₂ ⊢
  have hnone : m₁.Maps [] d₂.namedIds := fun _ hx => absurd hx not_mem_nil
  have himports := forM_carried h.imports (fun s _ _ _ _ => importSet_carried s) hnone
  refine .bind <| himports.weaken fun _ m₃ d₃ h₃ => ?_
  have hstrings := forM_carried (h.debug.filter (·.is .string))
    (fun s hs _ _ _ => string_carried (mem_filter.mp hs).right) h₃.maps
  refine .bind <| hstrings.weaken fun _ m₄ d₄ h₄ => ?_
  have hnamed : m₄.Maps h.namedIds d₄.declaredIds := by
    rw [Draft.namedIds, filterMap_append]
    exact h₄.maps.mono (.refl m₄) (subset_append_left ..)
  refine .bind <| (filterMapM_global_carried name hh hnamed).weaken fun new m₅ d₅ h₅ => ?_
  refine .bind <| (Adds.forM annotation_adds m₅ d₅).weaken fun _ m₆ d₆ h₆ => ?_
  refine .bind <| .edit <| .modify ?_
  refine (Adds.forM function_adds m₆ _).weaken fun _ m₇ d₇ h₇ => ?_
  have hlast := (h₆.trans (listVariables_appends new d₆)).trans h₇
  exact (((h₂.trans h₃.appends).trans h₄.appends).trans h₅.appends).trans hlast

end Linking

theorem Draft.link_appends {d h : Draft} (r : HelperRequest) (hh : h.DeclaredBeforeUse) :
    Leads (link r h) d (fun _ d' => d.Appends d') fun _ => True := by
  unfold link
  split
  case h_2 => exact .throw trivial
  case h_1 function _ =>
    split
    case isTrue => exact .throw trivial
    case isFalse =>
      exact .bind <| Leads.weaken (Linking.helper_adds r.name hh _ d) fun _ _ hd => .pure hd

end Shader
