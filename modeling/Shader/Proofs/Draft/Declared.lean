import Shader.Proofs.Execution.Split
import Shader.Proofs.Link.Renaming

namespace Shader

open List

namespace Statement

def refers (s : Statement) : List Id :=
  { s with resultId := none }.ids

-- Each statement refers only to ids that are known, or that are results of statements before it.
def InOrder : (known : List Id) → List Statement → Prop
  | _, [] => True
  | known, s :: rest => s.refers ⊆ known ∧ InOrder (known ++ s.resultId.toList) rest

def IsGuardable (s : Statement) : Prop :=
  ∃ op ∈ [Op.load, Op.store, Op.rayQueryInitializeKHR], s.op? = some op

-- A guard can declare a null value in place of the result.
def Replaceable (known : List Id) (s : Statement) : Prop :=
  s.IsGuardable → ∀ type, s.resultType = some type → type ∈ known

variable {s s' : Statement} {ss ts : List Statement} {known known' : List Id} {op : Op}
  {type id : Option Id} {operands : List Word}

instance InOrder.decidable :
    (known : List Id) → (ss : List Statement) → Decidable (InOrder known ss)
  | _, [] => isTrue trivial
  | known, s :: rest =>
    have := decidable (known ++ s.resultId.toList) rest
    inferInstanceAs (Decidable (_ ∧ _))

theorem mem_refers_iff {x : Id} :
    x ∈ s.refers ↔ s.resultType = some x ∨ ∃ k, s.operands[k]? = some x ∧ s.isId k = true := by
  rw [refers, mem_ids_iff]
  simp [isId, op?]

theorem refers_new_subset (ho : op.ids = .none) (ht : ∀ x ∈ type, x ∈ known) :
    (new op type id operands).refers ⊆ known := by
  intro x hx
  obtain hx | ⟨k, _, hk⟩ := mem_refers_iff.mp hx
  · exact ht x hx
  · rw [isId_eq (op?_new ..), ho] at hk
    cases hk

theorem filterMap_resultId_append (ss : List Statement) (s : Statement) :
    (ss ++ [s]).filterMap resultId = ss.filterMap resultId ++ s.resultId.toList := by
  cases hr : s.resultId <;> simp [hr]

theorem InOrder.mono (h : InOrder known ss) (hk : known ⊆ known') : InOrder known' ss := by
  induction ss generalizing known known'
  case nil => trivial
  case cons s ss hi =>
    refine ⟨Subset.trans h.left hk, hi h.right (append_subset.mpr ⟨?_, subset_append_right ..⟩)⟩
    exact Subset.trans hk (subset_append_left ..)

theorem inOrder_append :
    InOrder known (ss ++ ts) ↔ InOrder known ss ∧ InOrder (known ++ ss.filterMap resultId) ts := by
  induction ss generalizing known
  case nil => simp [InOrder]
  case cons s ss hi =>
    have hids : known ++ s.resultId.toList ++ ss.filterMap resultId
        = known ++ (s :: ss).filterMap resultId := by
      cases hr : s.resultId <;> simp [hr]
    rw [cons_append, InOrder, InOrder, hi, hids, and_assoc]

theorem inOrder_singleton : InOrder known [s] ↔ s.refers ⊆ known := by
  simp [InOrder]

theorem Replaceable.mono (h : s.Replaceable known) (hk : known ⊆ known') : s.Replaceable known' :=
  fun hs type ht => hk (h hs type ht)

theorem Replaceable.of_same (h : s.Replaceable known) (ho : s'.opcode = s.opcode)
    (ht : s'.resultType = s.resultType) : s'.Replaceable known := by
  have hop : s'.op? = s.op? := by rw [op?, op?, ho]
  unfold Replaceable IsGuardable at *
  rwa [hop, ht]

theorem replaceable_new (ho : op ∉ [Op.load, Op.store, Op.rayQueryInitializeKHR]) :
    (new op type id operands).Replaceable known := by
  rintro ⟨op', hmem, hop⟩
  rw [op?_new] at hop
  cases hop
  exact absurd hmem ho

end Statement

namespace Draft

def namedIds (d : Draft) : List Id :=
  (d.imports ++ d.debug.filter (·.is .string)).filterMap Statement.resultId

def declaredIds (d : Draft) : List Id :=
  d.namedIds ++ d.globals.filterMap Statement.resultId

def DeclaredBeforeUse (d : Draft) : Prop :=
  Statement.InOrder d.namedIds d.globals

instance (d : Draft) : Decidable d.DeclaredBeforeUse :=
  Statement.InOrder.decidable d.namedIds d.globals

def Guardable (d : Draft) : Prop :=
  ∀ f ∈ d.functions, ∀ b ∈ f.blocks, ∀ s ∈ b.body, s.Replaceable d.declaredIds

structure Appends (d d' : Draft) : Prop where
  named   : d.namedIds ⊆ d'.namedIds
  globals : d.globals <+: d'.globals
  ordered : d.DeclaredBeforeUse → d'.DeclaredBeforeUse

structure Prepares (d d' : Draft) : Prop extends Appends d d' where
  functions : d'.functions = d.functions

variable {d d' d'' : Draft} {op : Op} {type : Option Id} {operands : List Word} {p : Position}

theorem Appends.refl (d : Draft) : d.Appends d :=
  ⟨Subset.refl _, prefix_rfl, fun h => h⟩

theorem Appends.trans (h : d.Appends d') (h' : d'.Appends d'') : d.Appends d'' :=
  ⟨Subset.trans h.named h'.named, h.globals.trans h'.globals, fun hd => h'.ordered (h.ordered hd)⟩

theorem Appends.declared (h : d.Appends d') : d.declaredIds ⊆ d'.declaredIds := by
  refine append_subset.mpr ⟨Subset.trans h.named (subset_append_left ..), ?_⟩
  exact Subset.trans (filterMap_subset _ h.globals.subset) (subset_append_right ..)

theorem appends_of_named (hn : d.namedIds ⊆ d'.namedIds) (hg : d'.globals = d.globals) :
    d.Appends d' := by
  refine ⟨hn, hg ▸ prefix_rfl, fun h => ?_⟩
  rw [DeclaredBeforeUse, hg]
  exact h.mono hn

theorem appends_of_eq (hn : d'.namedIds = d.namedIds) (hg : d'.globals = d.globals) :
    d.Appends d' :=
  appends_of_named (hn ▸ Subset.refl _) hg

theorem appends_push {s : Statement} (hs : s.refers ⊆ d.declaredIds) :
    d.Appends (d.push s .globals) :=
  ⟨Subset.refl _, prefix_append .., fun h => Statement.inOrder_append.mpr
    ⟨h, Statement.inOrder_singleton.mpr hs⟩⟩

theorem appends_noteType (d : Draft) (s : Statement) : d.Appends (d.noteType s) := by
  rw [noteType_eq]
  exact appends_of_eq rfl rfl

theorem Prepares.refl (d : Draft) : d.Prepares d :=
  ⟨.refl d, rfl⟩

theorem Prepares.trans (h : d.Prepares d') (h' : d'.Prepares d'') : d.Prepares d'' :=
  ⟨h.toAppends.trans h'.toAppends, h'.functions.trans h.functions⟩

theorem Prepares.guardable (h : d.Prepares d') (hd : d.Guardable) : d'.Guardable := by
  unfold Guardable
  rw [h.functions]
  exact fun f hf b hb s hs => (hd f hf b hb s hs).mono h.declared

theorem Prepares.statement? (h : d.Prepares d') : d'.statement? p = d.statement? p := by
  simp [Draft.statement?, block?, h.functions]

theorem allocate_prepares : Leads allocate d (fun _ d' => d.Prepares d') fun _ => True := by
  refine allocate_leads.mono (fun _ _ ⟨_, hd, _⟩ => ?_) fun _ _ => trivial
  rw [hd]
  exact ⟨appends_of_eq rfl rfl, rfl⟩

theorem allocateTyped_prepares (type : Id) :
    Leads (allocateTyped type) d (fun _ d' => d.Prepares d') fun _ => True :=
  .bind <| allocate_prepares.weaken fun _ _ h => .bind <| .modify <| .pure <|
    h.trans ⟨appends_of_eq rfl rfl, rfl⟩

theorem findOrAddGlobal_prepares
    (h : (Statement.new op type none operands).refers ⊆ d.declaredIds) :
    Leads (findOrAddGlobal op type operands) d (fun id d' => d.Prepares d' ∧ id ∈ d'.declaredIds)
      fun _ => True := by
  refine .bind <| .get ?_
  split
  case h_1 id hid =>
    obtain ⟨s, hs, heq⟩ := findGlobal?_spec hid
    refine .pure ⟨.refl d, mem_append_right _ (mem_filterMap.mpr ⟨s, hs, ?_⟩)⟩
    exact congrArg Statement.resultId heq
  case h_2 =>
    refine .bind <| allocate_prepares.weaken fun id d₁ h₁ => .bind <| .modify <| .pure ?_
    rw [noteType_push]
    have h₂ : d.Appends (d₁.noteType (.new op type (some id) operands)) :=
      h₁.toAppends.trans (appends_noteType ..)
    refine ⟨⟨h₂.trans (appends_push (Subset.trans h h₂.declared)), ?_⟩, ?_⟩
    · rw [functions_push, functions_noteType, h₁.functions]
    · exact mem_append_right _ (mem_filterMap.mpr ⟨_, mem_append_right _ mem_cons_self, rfl⟩)

theorem typeBool_prepares : Leads typeBool d (fun _ d' => d.Prepares d') fun _ => True :=
  (findOrAddGlobal_prepares (Statement.refers_new_subset rfl (by simp))).weaken fun _ _ h => h.left

theorem typeInt_prepares (width : Word) (signed : Bool) :
    Leads (typeInt width signed) d (fun id d' => d.Prepares d' ∧ id ∈ d'.declaredIds)
      fun _ => True := by
  have hcapability (d : Draft) : d.Prepares (d.addCapability .int64) := by
    unfold addCapability addCapabilityWord
    split
    case isTrue => exact .refl d
    case isFalse => exact ⟨appends_of_eq rfl rfl, rfl⟩
  have hglobal (d : Draft) :
      Leads (findOrAddGlobal .typeInt none [width, if signed then 1 else 0]) d
      (fun id d' => d.Prepares d' ∧ id ∈ d'.declaredIds) fun _ => True :=
    findOrAddGlobal_prepares (Statement.refers_new_subset rfl (by simp))
  by_cases hw : width = 64
  case pos =>
    simp only [typeInt, hw, ↓reduceIte] at hglobal ⊢
    exact .bind <| .modify <| (hglobal _).weaken fun _ _ h =>
      ⟨(hcapability d).trans h.left, h.right⟩
  case neg =>
    simp only [typeInt, hw, ↓reduceIte]
    exact hglobal d

theorem constantWord_prepares (w : Word) :
    Leads (constantWord w) d (fun _ d' => d.Prepares d') fun _ => True := by
  refine .bind <| (typeInt_prepares 32 false).weaken fun type d₁ ⟨h₁, ht⟩ => ?_
  have hrefers : (Statement.new .constant (some type) none [w]).refers ⊆ d₁.declaredIds :=
    Statement.refers_new_subset rfl (by simpa using ht)
  exact (findOrAddGlobal_prepares hrefers).weaken fun _ _ h => h₁.trans h.left

theorem mergedResult_prepares {t : Statement}
    (ht : ∀ type, t.resultType = some type → type ∈ d.declaredIds) :
    Leads (mergedResult t) d (fun _ d' => d.Prepares d') fun _ => True := by
  unfold mergedResult
  split
  case h_1 type result htype _ =>
    refine .bind <| (allocateTyped_prepares type).weaken fun moved d₁ h₁ => ?_
    have hrefers : (Statement.new .constantNull (some type) none []).refers ⊆ d₁.declaredIds :=
      Statement.refers_new_subset rfl (by simpa using h₁.declared (ht type htype))
    exact .bind <| (findOrAddGlobal_prepares hrefers).weaken fun _ _ h => .pure (h₁.trans h.left)
  case h_2 => exact .pure (.refl d)

theorem Guardable.insertBefore {inserted : List Statement} (h : d.Guardable)
    (hi : ∀ s ∈ inserted, s.Replaceable d.declaredIds) : (d.insertBefore p inserted).Guardable := by
  refine forall_mem_modify h fun f _ hf => forall_mem_modify hf fun b _ hb s hs => ?_
  simp only [mem_append] at hs
  obtain (hs | hs) | hs := hs
  · exact hb s (mem_of_mem_take hs)
  · exact hi s hs
  · exact hb s (mem_of_mem_drop hs)

theorem Guardable.replaceOperand {k : Nat} {w : Word} (h : d.Guardable) :
    (d.replaceOperand p k w).Guardable :=
  forall_mem_modify h fun _ _ hf => forall_mem_modify hf fun _ _ hb => forall_mem_modify hb
      fun _ _ hs =>
    hs.of_same rfl rfl

theorem Guardable.guardAt {t : Statement} {test : List Statement} {condition : Id}
    {labels : GuardLabels} {merged : Option MergedResult} (h : d.Guardable)
    (ht : d.statement? p = some t) (hs : ∀ s ∈ test, s.Replaceable d.declaredIds) :
    (d.onFunction p.function (·.guardAt p.block p.index test condition labels
      merged)).Guardable := by
  obtain ⟨b, hb, ht⟩ := Option.bind_eq_some_iff.mp ht
  obtain ⟨f, hf, hb⟩ := Option.bind_eq_some_iff.mp hb
  refine forall_mem_modify h fun f' hf' hcode => ?_
  obtain rfl : f' = f := Option.some.inj (hf'.symm.trans hf)
  have htarget := hcode b (mem_of_getElem? hb) t (mem_of_getElem? ht)
  refine FunctionDraft.forall_guardAt hb ht hcode (fun _ _ => htarget.of_same rfl rfl) hs ?_
    fun _ _ _ hs => hs.of_same rfl rfl
  simp only [Block.added, forall_mem_append, forall_mem_cons, forall_mem_map, not_mem_nil,
    false_imp_iff, implies_true, and_true]
  refine ⟨⟨?_, ?_, ?_⟩, fun _ _ => ?_⟩ <;> exact Statement.replaceable_new (by decide)

theorem guardStatement_appends {test : List Statement} {condition : Id} (h : d.Guardable)
    (ht : ∀ t, d.statement? p = some t → t.IsGuardable)
    (hs : ∀ s ∈ test, s.Replaceable d.declaredIds) :
    Leads (guardStatement p test condition) d (fun _ d' => d.Appends d' ∧ d'.Guardable)
      fun _ => True := by
  refine .bind <| .get ?_
  split
  case h_2 => exact .throw trivial
  case h_1 t htarget =>
    have hcode : t.Replaceable d.declaredIds := by
      obtain ⟨b, hb, hat⟩ := Option.bind_eq_some_iff.mp htarget
      obtain ⟨f, hf, hb⟩ := Option.bind_eq_some_iff.mp hb
      exact h f (mem_of_getElem? hf) b (mem_of_getElem? hb) t (mem_of_getElem? hat)
    refine .bind <| (mergedResult_prepares (hcode (ht t htarget))).weaken fun merged d₁ h₁ => ?_
    refine .bind <| allocate_prepares.weaken fun valid d₂ h₂ => ?_
    refine .bind <| allocate_prepares.weaken fun invalid d₃ h₃ => ?_
    refine .bind <| allocate_prepares.weaken fun merge d₄ h₄ => .bind <| .modify <| .pure ?_
    have hp := ((h₁.trans h₂).trans h₃).trans h₄
    refine ⟨hp.toAppends.trans (appends_of_eq rfl rfl),
      (hp.guardable h).guardAt (hp.statement?.trans htarget) ?_⟩
    exact fun s hmem => (hs s hmem).mono hp.declared

end Draft
end Shader
