import Shader.Proofs.Instrument.Check
import Shader.Proofs.Stream.Framing

namespace Shader

open List

section

variable {ε σ α β : Type} {R R' : σ → σ → Prop} {e : EStateM ε σ α} {f : α → EStateM ε σ β}

-- Whether `e` fails or not, what it leaves is in the relation to what it found.
def Within (R : σ → σ → Prop) (e : EStateM ε σ α) : Prop :=
  ∀ s, Leads e s (fun _ => R s) (R s)

def FailsWithin (R : σ → σ → Prop) (e : EStateM ε σ α) : Prop :=
  ∀ s, Leads e s (fun _ _ => True) (R s)

theorem Leads.and {s : σ} {done done' : α → σ → Prop} {failed failed' : σ → Prop}
    (h : Leads e s done failed) (h' : Leads e s done' failed') :
    Leads e s (fun a s' => done a s' ∧ done' a s') fun s' => failed s' ∧ failed' s' := by
  unfold Leads at *
  split <;> simp_all

namespace Within

theorem pure [Std.Refl R] (a : α) : Within R (Pure.pure a : EStateM ε σ α) :=
  fun s => .pure (refl s)

theorem get [Std.Refl R] : Within R (MonadState.get : EStateM ε σ σ) :=
  fun s => .get (refl s)

theorem throw [Std.Refl R] (err : ε) : Within R (MonadExcept.throw err : EStateM ε σ α) :=
  fun s => .throw (refl s)

theorem modify {g : σ → σ} (h : ∀ s, R s (g s)) : Within R (modify g : EStateM ε σ PUnit) :=
  fun s => .modify (h s)

theorem bind [IsTrans σ R] (h : Within R e) (hf : ∀ a, Within R (f a)) : Within R (e >>= f) :=
  fun s => .bind <| (h s).weaken fun a s' hs =>
    (hf a s').mono (fun _ _ h => IsTrans.trans _ _ _ hs h) fun _ h => IsTrans.trans _ _ _ hs h

theorem mono (h : Within R e) (hr : ∀ s s', R s s' → R' s s') : Within R' e :=
  fun s => (h s).mono (fun _ s' => hr s s') fun s' => hr s s'

theorem leads (h : Within R e) (s : σ) : Leads e s (fun _ => R s) fun _ => True :=
  (h s).mono (fun _ _ h => h) fun _ _ => trivial

end Within

namespace FailsWithin

theorem throw [Std.Refl R] (err : ε) : FailsWithin R (MonadExcept.throw err : EStateM ε σ α) :=
  fun s => .throw (refl s)

theorem bind [IsTrans σ R] (h : Within R e) (hf : ∀ a, FailsWithin R (f a)) :
    FailsWithin R (e >>= f) :=
  fun s => .bind <| (h s).weaken fun a s' hs =>
    (hf a s').mono (fun _ _ _ => trivial) fun _ h => IsTrans.trans _ _ _ hs h

end FailsWithin
end

structure Draft.Extends (d d' : Draft) : Prop where
  capabilities : d.capabilities <+: d'.capabilities
  globals      : d.globals <+: d'.globals
  rest         : d' = { d with
    bound := d'.bound
    capabilities := d'.capabilities
    globals := d'.globals
    resultTypes := d'.resultTypes }

structure Workspace.Extends (w w' : Workspace) : Prop where
  draft    : w.draft.Extends w'.draft
  requests : w.requests <+: w'.requests

instance : Std.Refl Draft.Extends :=
  ⟨fun _ => ⟨prefix_rfl, prefix_rfl, rfl⟩⟩

instance : IsTrans Draft Draft.Extends :=
  ⟨fun _ _ _ h h' => ⟨h.capabilities.trans h'.capabilities, h.globals.trans h'.globals,
    by rw [h'.rest, h.rest]⟩⟩

instance : Std.Refl Workspace.Extends :=
  ⟨fun w => ⟨refl w.draft, prefix_rfl⟩⟩

instance : IsTrans Workspace Workspace.Extends :=
  ⟨fun _ _ _ h h' => ⟨IsTrans.trans _ _ _ h.draft h'.draft, h.requests.trans h'.requests⟩⟩

theorem Draft.Extends.functions {d d' : Draft} (h : d.Extends d') : d'.functions = d.functions := by
  rw [h.rest]

namespace Draft

theorem allocate_within : Within Extends allocate := by
  intro d
  refine .bind <| .get ?_
  split
  case isTrue => exact .bind <| .set <| .pure ⟨prefix_rfl, prefix_rfl, rfl⟩
  case isFalse => exact .throw (refl d)

theorem allocateTyped_within (type : Id) : Within Extends (allocateTyped type) :=
  .bind allocate_within fun _ => .bind (.modify fun _ => ⟨prefix_rfl, prefix_rfl, rfl⟩)
    fun _ => .pure _

theorem noteType_extends (d : Draft) (s : Statement) : d.Extends (d.noteType s) := by
  rw [noteType_eq]
  exact ⟨prefix_rfl, prefix_rfl, rfl⟩

theorem findOrAddGlobal_within (op : Op) (type : Option Id) (operands : List Word) :
    Within Extends (findOrAddGlobal op type operands) := by
  refine .bind .get fun d => ?_
  split
  case h_1 => exact .pure _
  case h_2 =>
    refine .bind allocate_within fun id => .bind (.modify fun d => ?_) fun _ => .pure _
    rw [noteType_push]
    have hpush (d : Draft) (s : Statement) : d.Extends (d.push s .globals) :=
      ⟨prefix_rfl, prefix_append .., rfl⟩
    exact IsTrans.trans _ _ _ (d.noteType_extends _) (hpush _ _)

theorem addCapability_extends (d : Draft) (c : Capability) : d.Extends (d.addCapability c) := by
  unfold addCapability addCapabilityWord
  split
  case isTrue => exact refl d
  case isFalse => exact ⟨prefix_append .., prefix_rfl, rfl⟩

theorem typeInt_within (width : Word) (signed : Bool) : Within Extends (typeInt width signed) := by
  by_cases hw : width = 64
  case pos =>
    simp only [typeInt, hw, ↓reduceIte]
    exact .bind (.modify fun d => addCapability_extends d .int64)
      fun _ => findOrAddGlobal_within _ _ _
  case neg =>
    simp only [typeInt, hw, ↓reduceIte]
    exact findOrAddGlobal_within _ _ _

theorem constantWord_within (w : Word) : Within Extends (constantWord w) :=
  .bind (typeInt_within 32 false) fun _ => findOrAddGlobal_within _ _ _

theorem mergedResult_within (t : Statement) : Within Extends (mergedResult t) := by
  unfold mergedResult
  split
  case h_1 type _ _ _ =>
    exact .bind (allocateTyped_within type) fun _ => .bind (findOrAddGlobal_within _ _ _)
      fun _ => .pure _
  case h_2 => exact .pure _

theorem guardStatement_failsWithin (p : Position) (test : List Statement) (condition : Id) :
    FailsWithin Extends (guardStatement p test condition) := by
  refine .bind .get fun d => ?_
  split
  case h_2 => exact .throw _
  case h_1 target _ =>
    refine .bind (mergedResult_within target) fun merged => ?_
    refine .bind allocate_within fun valid => .bind allocate_within fun invalid => ?_
    exact .bind allocate_within fun merge _ => .bind <| .modify <| .pure trivial

end Draft

namespace Instrumenting

variable {α : Type} {e : Editing α}

theorem error_of_edit {err : EditError} {w w' : Workspace} (h : edit e w = .error err w') :
    e w.draft = .error err w'.draft := by
  unfold edit at h
  split at h
  case h_1 => cases h
  case h_2 he =>
    cases h
    exact he

theorem edit_within (h : Within Draft.Extends e) : Within Workspace.Extends (edit e) :=
  fun w => edit_leads <| (h w.draft).mono (fun _ _ hd => ⟨hd, prefix_rfl⟩) fun _ hd =>
    ⟨hd, prefix_rfl⟩

theorem edit_failsWithin (h : FailsWithin Draft.Extends e) :
    FailsWithin Workspace.Extends (edit e) :=
  fun w => edit_leads <| (h w.draft).mono (fun _ _ _ => trivial) fun _ hd => ⟨hd, prefix_rfl⟩

theorem request_within (name : String) : Within Workspace.Extends (request name) := by
  refine .bind .get fun w => ?_
  split
  case h_1 => exact .pure _
  case h_2 =>
    refine .bind (edit_within Draft.allocate_within) fun id => .bind (.modify fun w => ?_)
      fun _ => .pure _
    exact ⟨refl w.draft, prefix_append ..⟩

theorem callHelper_within (name : String) (type : Id) (arguments : List Id) :
    Within Workspace.Extends (callHelper name type arguments) :=
  .bind (request_within name) fun _ => .bind (edit_within (Draft.allocateTyped_within type))
    fun _ => .pure _

end Instrumenting

open Instrumenting Draft

def Check.FailsWithin (c : Check) : Prop :=
  ∀ p, Shader.FailsWithin Workspace.Extends (c.visit p)

namespace DescriptorIndexing

theorem unsigned_within (type : Instruction) (word index : Id) :
    Within Extends (unsigned type word index) := by
  unfold unsigned
  split
  case isTrue => exact .bind (allocateTyped_within word) fun _ => .pure _
  case isFalse => exact .pure _

theorem arguments_within (array : DescriptorArray) (offset : Nat) (index : Id) :
    Within Extends (arguments array offset index) :=
  .bind (constantWord_within _) fun _ => .bind (constantWord_within _) fun _ =>
    .bind (constantWord_within _) fun _ => .bind (constantWord_within _) fun _ => .pure _

theorem instrument_failsWithin (p : Position) (type : Instruction) (array : DescriptorArray)
    (offset : Nat) (index : Id) :
    FailsWithin Workspace.Extends (instrument p type array offset index) := by
  refine .bind (edit_within (typeInt_within 32 false)) fun word => ?_
  refine .bind (edit_within (unsigned_within type word index)) fun (index, cast) => ?_
  refine .bind (edit_within (arguments_within array offset index)) fun arguments => ?_
  exact .bind (callHelper_within helper word arguments) fun (safe, call) _ => .bind <| .modify <|
    .pure trivial

theorem visit_failsWithin (m : Module) (settings : Settings) : (check m settings).FailsWithin := by
  intro p w
  exact visit_cases (fun _ => trivial) (refl w) fun s type array index _ => .weaken
    (instrument_failsWithin p type array _ index w) fun _ _ _ => trivial

end DescriptorIndexing

namespace BufferAddress

theorem arguments_within (offset : Nat) (address : Id) (size : Nat) (isStore : Bool) :
    Within Extends (arguments offset address size isStore) :=
  .bind (constantWord_within _) fun _ => .bind (constantWord_within _) fun _ =>
    .bind (constantWord_within _) fun _ => .pure _

theorem instrument_failsWithin (p : Position) (offset : Nat) (pointer : Id) (size : Nat)
    (isStore : Bool) :
    FailsWithin Workspace.Extends (instrument p offset pointer size isStore) := by
  refine .bind (edit_within (typeInt_within 64 false)) fun addressType => ?_
  refine .bind (edit_within (findOrAddGlobal_within _ _ _)) fun boolType => ?_
  refine .bind (edit_within (allocateTyped_within addressType)) fun address => ?_
  refine .bind (edit_within (arguments_within offset address size isStore)) fun arguments => ?_
  refine .bind (callHelper_within helper boolType arguments) fun (condition, call) => ?_
  exact edit_failsWithin (guardStatement_failsWithin p _ _)

theorem visit_failsWithin (m : Module) : (check m).FailsWithin := by
  intro p w
  refine visit_cases (fun _ => trivial) (refl w) fun s isStore pointer size notes _ _ => ?_
  -- Notes are not part of the relation.
  exact (instrument_failsWithin p _ pointer size isStore { w with notes := notes }).mono
    (fun _ _ _ => trivial) fun _ h => ⟨h.draft, h.requests⟩

end BufferAddress

namespace RayQuery

theorem instrument_failsWithin (p : Position) (offset : Nat) (ray : List Id) :
    FailsWithin Workspace.Extends (instrument p offset ray) := by
  refine .bind (edit_within (findOrAddGlobal_within _ _ _)) fun boolType => ?_
  refine .bind (edit_within (constantWord_within _)) fun offset => ?_
  refine .bind (callHelper_within helper boolType _) fun (condition, call) => ?_
  exact edit_failsWithin (guardStatement_failsWithin p _ _)

theorem visit_failsWithin : check.FailsWithin := by
  intro p w
  exact visit_cases (fun _ => trivial) (refl w) fun s ray _ _ _ => .weaken
    (instrument_failsWithin p _ ray w) fun _ _ _ => trivial

end RayQuery

namespace Pipeline

theorem checks_failWithin (m : Module) (s : Settings) : ∀ c ∈ checks m s, c.FailsWithin :=
  forall_checks (DescriptorIndexing.visit_failsWithin m s) (BufferAddress.visit_failsWithin m)
    RayQuery.visit_failsWithin

theorem failed_visit_keeps_code (m : Module) (s : Settings) :
    (∀ c ∈ checks m s, ∀ p w e w', c.visit p w = .error e w' → w.Extends w')
      ∧ ∀ p test condition d e d', Draft.guardStatement p test condition d = .error e d' →
        d.Extends d' := by
  constructor
  case left =>
    intro c hc p w e w' h
    exact (checks_failWithin m s c hc p w).error h
  case right =>
    intro p test condition d e d' h
    exact (Draft.guardStatement_failsWithin p test condition d).error h

theorem error_of_step {α : Type} {p : Pipeline} {i : Instrumenting α} {e : EditError}
    (h : (p.step i).1 = .error e) :
    i p.toWorkspace = .error e (p.step i).2.toWorkspace := by
  unfold step at *
  split at h
  case h_1 => cases h
  case h_2 hi =>
    cases h
    exact hi

-- A module that starts a ray query and has seven ids left.
def almostFull : List Word :=
  [0x07230203, 0x00010500, 0, 0xFFFFFFF8, 0,
   0x20013, 1, 0x30021, 2, 1,
   0x50036, 1, 3, 0, 2, 0x200F8, 4, 0x91179, 5, 6, 7, 8, 9, 10, 11, 12, 0x100FD, 0x10038]

-- The call of the helper and two of the labels take all of them. A guard on its own fails just so
-- if it has two.
theorem failed_visit_keeps_code_almostFull :
    ∃ p w' d d', new almostFull = .ok p
      ∧ RayQuery.check ∈ checks p.analysis { rayQuery := true }
      ∧ RayQuery.check.visit ⟨0, 0, 0⟩ p.toWorkspace = .error (.inconsistent .boundOverflow) w'
      ∧ (w'.draft.globals.length, w'.requests.map HelperRequest.name) = (5, [RayQuery.helper])
      ∧ p.toWorkspace.Extends w'
      ∧ d = { p.draft with bound := 0xFFFFFFFD }
      ∧ Draft.guardStatement ⟨0, 0, 0⟩ [] 1 d = .error (.inconsistent .boundOverflow) d'
      ∧ d'.bound = 0xFFFFFFFF
      ∧ d.Extends d' := by
  have hfails : ((new almostFull).map fun p => decide (
      let q := p.step (RayQuery.check.visit ⟨0, 0, 0⟩)
      let r := { p with draft.bound := 0xFFFFFFFD }.step
        (.edit (Draft.guardStatement ⟨0, 0, 0⟩ [] 1))
      q.1 = .error (.inconsistent .boundOverflow)
      ∧ (q.2.draft.globals.length, q.2.requests.map HelperRequest.name) = (5, [RayQuery.helper])
      ∧ r.1 = .error (.inconsistent .boundOverflow) ∧ r.2.draft.bound = 0xFFFFFFFF))
        = .ok true := by
    decide +kernel
  obtain ⟨p, h, hfailed, hadded, hfailed', hbound⟩ := exists_ok_of_decide hfails
  have hc : RayQuery.check ∈ checks p.analysis { rayQuery := true } := mem_singleton_self _
  have hkeeps := failed_visit_keeps_code p.analysis { rayQuery := true }
  have hv := error_of_step hfailed
  have hg := Instrumenting.error_of_edit (error_of_step hfailed')
  exact ⟨p, _, _, _, h, hc, hv, hadded, hkeeps.left _ hc _ _ _ _ hv, rfl, hg, hbound,
    hkeeps.right _ _ _ _ _ _ hg⟩

end Pipeline
end Shader
