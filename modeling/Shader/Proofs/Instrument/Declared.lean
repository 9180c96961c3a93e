import Shader.Proofs.Instrument.Frame
import Shader.Proofs.Link.Declared

namespace Shader

open List

namespace Draft

def LoadsDeclared (d : Draft) : Prop :=
  ∀ f ∈ d.functions, ∀ b ∈ f.blocks, ∀ s ∈ b.body, s.is .load = true →
    s.resultType.toList ⊆ d.declaredIds

instance (d : Draft) : Decidable d.LoadsDeclared :=
  List.decidableBAll _ _

theorem Guardable.loadsDeclared {d : Draft} (h : d.Guardable) : d.LoadsDeclared := by
  intro f hf b hb s hs hload type htype
  exact h f hf b hb s hs ⟨.load, by simp, by simpa [Statement.is] using hload⟩ type
    (by simpa using htype)

theorem LoadsDeclared.guardable {d : Draft} (h : d.LoadsDeclared) (hw : d.WellFormed) :
    d.Guardable := by
  rintro f hf b hb s hs ⟨op, hop, ho⟩ type htype
  have hform := ((hw.functions f hf).code b hb s hs).type
  rw [htype, Statement.outcome, ho] at hform
  simp only [mem_cons, not_mem_nil, or_false] at hop
  obtain rfl | rfl | rfl := hop
  · exact h f hf b hb s hs (by simp [Statement.is, ho]) (by simp [htype])
  · cases hform
  · cases hform

end Draft

namespace Instrumenting

variable {α : Type} {w w₁ : Workspace} {p : Position} {t : Statement} {test : List Statement}
  {condition : Id}

theorem edit_prepares {e : Editing α}
    (h : Leads e w.draft (fun _ d => w.draft.Prepares d) fun _ => True) :
    Leads (edit e) w (fun _ w' => w.draft.Prepares w'.draft) fun _ => True :=
  edit_leads h

theorem request_prepares (name : String) :
    Leads (request name) w (fun _ w' => w.draft.Prepares w'.draft) fun _ => True := by
  refine .bind <| .get ?_
  split
  case h_1 => exact .pure (.refl _)
  case h_2 =>
    exact .bind <| (edit_prepares Draft.allocate_prepares).weaken fun _ _ h => .bind <|
      .modify <| .pure h

theorem callHelper_prepares (name : String) (type : Id) (arguments : List Id) :
    Leads (callHelper name type arguments) w
      (fun r w' => w.draft.Prepares w'.draft ∧ ∀ known, r.2.Replaceable known) fun _ => True := by
  refine .bind <| (request_prepares name).weaken fun function w₁ h₁ => ?_
  refine .bind <| (edit_prepares (Draft.allocateTyped_prepares type)).weaken
    fun result w₂ h₂ => .pure ?_
  exact ⟨h₁.trans h₂, fun _ => Statement.replaceable_new (by decide)⟩

theorem guard_appends (h : w.draft.Guardable) (h₁ : w.draft.Prepares w₁.draft)
    (ht : w.draft.statement? p = some t) (hg : t.IsGuardable)
    (hs : ∀ s ∈ test, ∀ known, s.Replaceable known) :
    Leads (edit (Draft.guardStatement p test condition)) w₁
      (fun _ w' => w.draft.Appends w'.draft ∧ w'.draft.Guardable) fun _ => True := by
  have htarget (s : Statement) (hat : w₁.draft.statement? p = some s) : s.IsGuardable :=
    Option.some.inj (ht.symm.trans (h₁.statement?.symm.trans hat)) ▸ hg
  refine edit_leads <| (Draft.guardStatement_appends (h₁.guardable h) htarget fun s hmem =>
    hs s hmem _).weaken ?_
  exact fun _ _ ⟨hd, hd'⟩ => ⟨h₁.toAppends.trans hd, hd'⟩

end Instrumenting

open Instrumenting

def Check.Appends (c : Check) : Prop :=
  ∀ p (w : Workspace), w.draft.Guardable →
    Leads (c.visit p) w (fun _ w' => w.draft.Appends w'.draft ∧ w'.draft.Guardable) fun _ => True

namespace DescriptorIndexing

theorem unsigned_prepares {d : Draft} (type : Instruction) (word index : Id) :
    Leads (unsigned type word index) d (fun r d' => d.Prepares d'
      ∧ ∀ s ∈ r.2, ∀ known, s.Replaceable known)
      fun _ => True := by
  unfold unsigned
  split
  case isTrue =>
    refine .bind <| (Draft.allocateTyped_prepares word).weaken fun cast d' h => .pure ⟨h, ?_⟩
    simpa using fun _ => Statement.replaceable_new (by decide)
  case isFalse => exact .pure ⟨.refl d, by simp⟩

theorem arguments_prepares {d : Draft} (array : DescriptorArray) (offset : Nat) (index : Id) :
    Leads (arguments array offset index) d (fun _ d' => d.Prepares d') fun _ => True := by
  refine .bind <| (Draft.constantWord_prepares _).weaken fun _ d₁ h₁ => ?_
  refine .bind <| (Draft.constantWord_prepares _).weaken fun _ d₂ h₂ => ?_
  refine .bind <| (Draft.constantWord_prepares _).weaken fun _ d₃ h₃ => ?_
  exact .bind <| (Draft.constantWord_prepares _).weaken fun _ d₄ h₄ =>
    .pure (((h₁.trans h₂).trans h₃).trans h₄)

theorem instrument_appends {w : Workspace} {p : Position} (type : Instruction)
    (array : DescriptorArray) (offset : Nat) (index : Id) (h : w.draft.Guardable) :
    Leads (instrument p type array offset index) w
      (fun _ w' => w.draft.Appends w'.draft ∧ w'.draft.Guardable) fun _ => True := by
  refine .bind <| (edit_prepares <| (Draft.typeInt_prepares 32 false).weaken fun _ _ h =>
    h.left).weaken
    fun word w₁ h₁ => ?_
  refine .bind <| edit_leads <| (unsigned_prepares type word index).weaken
    fun (index, cast) d₂ ⟨h₂, hcast⟩ => ?_
  refine .bind <| (edit_prepares (arguments_prepares array offset index)).weaken
    fun arguments w₃ h₃ => ?_
  refine .bind <| (callHelper_prepares helper word arguments).weaken
    fun (safe, call) w₄ ⟨h₄, hcall⟩ => ?_
  refine .bind <| .modify <| .pure ?_
  have hp := ((h₁.trans h₂).trans h₃).trans h₄
  refine ⟨hp.toAppends.trans (Draft.appends_of_eq rfl rfl),
    (hp.guardable h).replaceOperand.insertBefore ?_⟩
  simp only [forall_mem_append, forall_mem_singleton]
  exact ⟨fun s hs => hcast s hs _, hcall _⟩

theorem visit_appends (m : Module) (settings : Settings) : (check m settings).Appends := by
  intro p w h
  exact visit_cases (fun _ => ⟨.refl _, h⟩) trivial fun s type array index _ =>
    instrument_appends type array _ index h

end DescriptorIndexing

namespace BufferAddress

theorem arguments_prepares {d : Draft} (offset : Nat) (address : Id) (size : Nat) (isStore : Bool) :
    Leads (arguments offset address size isStore) d (fun _ d' => d.Prepares d') fun _ => True := by
  refine .bind <| (Draft.constantWord_prepares _).weaken fun _ d₁ h₁ => ?_
  refine .bind <| (Draft.constantWord_prepares _).weaken fun _ d₂ h₂ => ?_
  exact .bind <| (Draft.constantWord_prepares _).weaken fun _ d₃ h₃ =>
    .pure ((h₁.trans h₂).trans h₃)

theorem instrument_appends {w : Workspace} {p : Position} {t : Statement} (offset : Nat)
    (pointer : Id) (size : Nat) (isStore : Bool) (h : w.draft.Guardable)
    (ht : w.draft.statement? p = some t) (hg : t.IsGuardable) :
    Leads (instrument p offset pointer size isStore) w
      (fun _ w' => w.draft.Appends w'.draft ∧ w'.draft.Guardable) fun _ => True := by
  refine .bind <| (edit_prepares <| (Draft.typeInt_prepares 64 false).weaken fun _ _ h =>
    h.left).weaken
    fun addressType w₁ h₁ => ?_
  refine .bind <| (edit_prepares Draft.typeBool_prepares).weaken fun boolType w₂ h₂ => ?_
  refine .bind <| (edit_prepares (Draft.allocateTyped_prepares addressType)).weaken
    fun address w₃ h₃ => ?_
  refine .bind <| (edit_prepares (arguments_prepares offset address size isStore)).weaken
    fun arguments w₄ h₄ => ?_
  refine .bind <| (callHelper_prepares helper boolType arguments).weaken
    fun (condition, call) w₅ ⟨h₅, hcall⟩ => ?_
  refine guard_appends h ((((h₁.trans h₂).trans h₃).trans h₄).trans h₅) ht hg ?_
  simp only [forall_mem_cons, not_mem_nil, false_imp_iff, implies_true, and_true]
  exact ⟨fun _ => Statement.replaceable_new (by decide), hcall⟩

theorem visit_appends (m : Module) : (check m).Appends := by
  intro p w h
  exact visit_cases (fun _ => ⟨.refl _, h⟩) trivial fun s isStore pointer size notes hs hstore =>
    instrument_appends _ pointer size isStore h hs
      ⟨_, by cases isStore <;> simp, op?_of_isStore? hstore⟩

end BufferAddress

namespace RayQuery

theorem instrument_appends {w : Workspace} {p : Position} {t : Statement} (offset : Nat)
    (ray : List Id) (h : w.draft.Guardable) (ht : w.draft.statement? p = some t)
    (hg : t.IsGuardable) :
    Leads (instrument p offset ray) w (fun _ w' => w.draft.Appends w'.draft ∧ w'.draft.Guardable)
      fun _ => True := by
  refine .bind <| (edit_prepares Draft.typeBool_prepares).weaken fun boolType w₁ h₁ => ?_
  refine .bind <| (edit_prepares (Draft.constantWord_prepares _)).weaken fun offset w₂ h₂ => ?_
  refine .bind <| (callHelper_prepares helper boolType _).weaken
    fun (condition, call) w₃ ⟨h₃, hcall⟩ => ?_
  exact guard_appends h ((h₁.trans h₂).trans h₃) ht hg (by simpa using hcall)

theorem visit_appends : check.Appends := by
  intro p w h
  refine visit_cases (fun _ => ⟨.refl _, h⟩) trivial fun s ray hs hstart _ =>
    instrument_appends _ ray h hs ?_
  exact ⟨.rayQueryInitializeKHR, by simp, by simpa [Statement.is] using hstart⟩

end RayQuery

namespace Pipeline

theorem checks_append (m : Module) (s : Settings) : ∀ c ∈ checks m s, c.Appends :=
  forall_checks (DescriptorIndexing.visit_appends m s) (BufferAddress.visit_appends m)
    RayQuery.visit_appends

theorem runChecks_appends {w : Workspace} (m : Module) (s : Settings) (h : w.draft.Guardable) :
    Leads (runChecks m s) w (fun _ w' => w.draft.Appends w'.draft ∧ w'.draft.Guardable)
      fun _ => True := by
  refine foldlM_keeps (fun _ _ h => h) (fun c hc w₁ h₁ => ?_) 0 ⟨.refl _, h⟩
  refine c.run_leads (fun _ w' => w.draft.Appends w'.draft ∧ w'.draft.Guardable) ?_ (limit? s) h₁
  rintro w₂ p _ _ _ ⟨h₂, hg₂⟩ _ _ _
  exact (checks_append m s c hc p w₂ hg₂).weaken fun _ _ ⟨h₃, hg₃⟩ => ⟨h₂.trans h₃, hg₃⟩

end Pipeline

theorem Instrumenting.linkRequest_appends {library : String → Option (List Word)}
    {r : HelperRequest} {w : Workspace}

    (hlibrary : ∀ words m h, library r.name = some words → Module.ofWords words = .ok m →
      Draft.ofBinary m.toBinary = .ok h → h.DeclaredBeforeUse) :
    Leads (linkRequest library r) w (fun _ w' => w.draft.Appends w'.draft) fun _ => True := by
  unfold linkRequest
  split
  case h_2 => exact .throw trivial
  case h_1 words hwords =>
    refine .bind <| .modify ?_
    refine .bind <| (readHelper_leads fun _ => trivial).weaken
      fun h w₁ ⟨⟨m, hm, hh⟩, notes, hw₁⟩ => ?_
    subst hw₁
    exact edit_leads (Draft.link_appends r (hlibrary words m h hwords hm hh))

namespace Pipeline

theorem globals_stay_ordered {p : Pipeline} (hd : p.draft.DeclaredBeforeUse) :
    (∀ words p₀ s count, new words = .ok p₀ → Reached p₀ p → p.draft.LoadsDeclared →
      (p.run s).1 = .ok count →
      (p.run s).2.draft.DeclaredBeforeUse ∧ (p.run s).2.draft.LoadsDeclared
        ∧ p.draft.globals <+: (p.run s).2.draft.globals)
    ∧ ∀ library r w', (∀ words m h, library r.name = some words → Module.ofWords words = .ok m →
        Draft.ofBinary m.toBinary = .ok h → h.DeclaredBeforeUse) →
      Instrumenting.linkRequest library r p.toWorkspace = .ok () w' →
      w'.draft.DeclaredBeforeUse ∧ p.draft.globals <+: w'.draft.globals := by
  refine ⟨fun words p₀ s count h hp hl hrun => ?_, fun library r w' hlibrary hlink => ?_⟩
  · have hguardable := hl.guardable (hp.wellFormed h)
    obtain ⟨h, hg⟩ := step_ok (runChecks_appends p.analysis s hguardable) hrun
    exact ⟨h.ordered hd, hg.loadsDeclared, h.globals⟩
  · have h := (Instrumenting.linkRequest_appends hlibrary).ok hlink
    exact ⟨h.ordered hd, h.globals⟩

theorem globals_stay_ordered_loadsThenQueries :
    ∃ p w', new loadsThenQueries = .ok p
      ∧ let q := (p.run { bufferAddress := true, rayQuery := true }).2
        p.draft.DeclaredBeforeUse ∧ p.draft.LoadsDeclared
        ∧ (p.run { bufferAddress := true, rayQuery := true }).1 = .ok 2
        ∧ Instrumenting.linkRequest (fun _ => some permit) ⟨BufferAddress.helper, 24⟩ q.toWorkspace
          = .ok () w'
        ∧ (p.draft.globals.length, q.draft.globals.length, w'.draft.globals.length) = (5, 12, 14)
        ∧ q.draft.DeclaredBeforeUse ∧ q.draft.LoadsDeclared ∧ w'.draft.DeclaredBeforeUse := by
  have hrun : ((new loadsThenQueries).map fun p => decide (
      let q := (p.run { bufferAddress := true, rayQuery := true }).2
      p.draft.DeclaredBeforeUse ∧ p.draft.LoadsDeclared
      ∧ (p.run { bufferAddress := true, rayQuery := true }).1 = .ok 2
      ∧ (p.draft.globals.length, q.draft.globals.length) = (5, 12)
      ∧ (final? (Instrumenting.linkRequest (fun _ => some permit) ⟨BufferAddress.helper, 24⟩)
        q.toWorkspace).map (·.draft.globals.length) = some 14)) = .ok true := by
    decide +kernel
  have hpermit : ((Module.ofWords permit).map fun m => (Draft.ofBinary m.toBinary).map fun h =>
      decide h.DeclaredBeforeUse) = .ok (.ok true) := by
    decide +kernel
  obtain ⟨p, h, hd, hl, hcount, hlengths, hlink⟩ := exists_ok_of_decide hrun
  obtain ⟨w', hw', hlength⟩ := Option.map_eq_some_iff.mp hlink
  obtain ⟨_, hlink⟩ := final?_eq_some_iff.mp hw'
  obtain ⟨hq, hlq, _⟩ := (globals_stay_ordered hd).left _ p _ 2 h .start hl hcount
  refine ⟨p, w', h, hd, hl, hcount, hlink, ?_, hq, hlq, ?_⟩
  · simpa [hlength] using hlengths
  · refine ((globals_stay_ordered hq).right _ _ w' ?_ hlink).left
    rintro words m helper ⟨⟩ hm hh
    rw [hm, Except.map, hh] at hpermit
    exact of_decide_eq_true (Except.ok.inj (Except.ok.inj hpermit))

end Pipeline
end Shader
