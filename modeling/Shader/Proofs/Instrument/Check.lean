import Shader.Instrument.Pipeline
import Shader.Proofs.Draft.Edit

namespace Shader

open List

namespace Workspace

def pending (w : Workspace) : List Definition :=
  w.requests.map fun r => (r.function, none)

def Tracked (base : Opening) (rest : List Definition) (w : Workspace) : Prop :=
  Ledger base w.draft (w.pending ++ rest)

theorem tracked_iff {base : Opening} {rest : List Definition} {w : Workspace}
    (h : w.requests = []) :
    w.Tracked base rest ↔ Ledger base w.draft rest := by
  rw [Tracked, pending, h]
  rfl

def Lost (base : Opening) (w : Workspace) : Prop :=
  ∃ rest, w.Tracked base rest

structure Grown (base : Opening) (rest : List Definition) (w w' : Workspace)
    (new : List Definition) : Prop where
  tracked   : w'.Tracked base (new ++ rest)
  functions : w'.draft.functions = w.draft.functions

theorem Grown.trans {base : Opening} {rest new new' : List Definition} {w w' w'' : Workspace}
    (h : w'.Grown base (new ++ rest) w'' new') (hw : w.Grown base rest w' new) :
    w.Grown base rest w'' (new' ++ new) :=
  ⟨by simpa using h.tracked, h.functions.trans hw.functions⟩

theorem Grown.statement? {base : Opening} {rest new : List Definition} {w w' : Workspace}
    (h : w.Grown base rest w' new) (p : Position) :
    w'.draft.statement? p = w.draft.statement? p := by
  simp [Draft.statement?, Draft.block?, h.functions]

end Workspace

namespace Instrumenting

variable {α : Type} {base : Opening} {rest : List Definition} {w : Workspace}

theorem edit_leads {e : Editing α} {done : α → Workspace → Prop} {failed : Workspace → Prop}

    (h : Leads e w.draft (fun a d => done a { w with draft := d })
      fun d => failed { w with draft := d }) :
    Leads (edit e) w done failed := by
  unfold Leads edit at *
  cases he : e w.draft <;> simpa [he] using h

theorem lost_of_spilled {d : Draft} (h : Spilled base (w.pending ++ rest) d) :
    { w with draft := d }.Lost base := by
  obtain ⟨lost, h⟩ := h
  refine ⟨rest ++ lost, h.perm ?_⟩
  show lost ++ (w.pending ++ rest) ~ w.pending ++ (rest ++ lost)
  rw [← append_assoc w.pending]
  exact perm_append_comm

theorem edit_grows {e : Editing α} {new : α → List Definition} {P : α → Prop}
    (h : Leads e w.draft (fun a d => P a ∧ Draft.Grown base (w.pending ++ rest) w.draft d (new a))
      (Spilled base (w.pending ++ rest))) :
    Leads (edit e) w (fun a w' => P a ∧ w.Grown base rest w' (new a)) (Workspace.Lost base) := by
  refine edit_leads <| h.mono (fun a d ⟨ha, hd⟩ => ⟨ha, hd.ledger.perm ?_, hd.functions⟩)
    fun d => lost_of_spilled
  simp only [← append_assoc]
  exact perm_append_comm.append_right _

theorem edit_grows_nil {e : Editing α}
    (h : Leads e w.draft (fun _ d => Draft.Grown base (w.pending ++ rest) w.draft d [])
      (Spilled base (w.pending ++ rest))) :
    Leads (edit e) w (fun _ w' => w.Grown base rest w' []) (Workspace.Lost base) :=
  (edit_grows (P := fun _ => True) (h.weaken fun _ _ hd => ⟨trivial, hd⟩)).weaken
    fun _ _ h => h.right

theorem ofChecked_leads {c : Checked α} {done : α → Workspace → Prop} {failed : Workspace → Prop}
    (h : ∀ a, c = .ok a → done a w) (hf : failed w) : Leads (ofChecked c) w done failed := by
  cases c
  case ok a => exact .pure (h a rfl)
  case error => exact .throw hf

theorem report_leads {notes : List Note} {done : Unit → Workspace → Prop}
    {failed : Workspace → Prop} (h : done () { w with notes := w.notes ++ notes }) :
    Leads (report notes) w done failed :=
  .modify h

theorem request_grows (name : String) (h : w.Tracked base rest) :
    Leads (request name) w (fun _ w' => w.Grown base rest w' []) (Workspace.Lost base) := by
  refine .bind <| .get ?_
  split
  case h_1 => exact .pure ⟨h, rfl⟩
  case h_2 =>
    refine .bind <| edit_leads <| (Draft.allocate_grows h).mono (fun id d hd => ?_)
      fun d => lost_of_spilled
    refine .bind <| .modify <| .pure ⟨hd.ledger.perm ?_, hd.functions⟩
    show (id, none) :: (w.pending ++ rest) ~ (w.requests ++ [_]).map _ ++ rest
    rw [map_append, append_assoc]
    exact perm_middle.symm

theorem edit_allocateTyped_grows (type : Id) (h : w.Tracked base rest) :
    Leads (edit (Draft.allocateTyped type)) w (fun id w' => w.Grown base rest w' [(id, some type)])
      (Workspace.Lost base) :=
  (edit_grows (P := fun _ => True) <| (Draft.allocateTyped_grows type h).weaken
    fun _ _ h => ⟨trivial, h⟩).weaken fun _ _ h => h.right

theorem callHelper_grows {type : Id} {arguments : List Id} (name : String) (h : w.Tracked base rest)
    (ha : arguments.length < 2 ^ 15) :
    Leads (callHelper name type arguments) w
      (fun r w' => r.2.IsCode ∧ w.Grown base rest w' r.2.defines) (Workspace.Lost base) := by
  refine .bind <| (request_grows name h).weaken fun function w₁ h₁ => ?_
  refine .bind <| (edit_allocateTyped_grows type h₁.tracked).weaken fun result w₂ h₂ =>
    .pure ⟨?_, h₂.trans h₁⟩
  have hlen : (Statement.new .functionCall (some type) (some result) (function :: arguments)).length
      = arguments.length + 4 := by
    simp [Statement.length, Statement.new]; omega
  refine .new rfl rfl (hlen ▸ show 4 ≤ _ by omega) (show _ < _ by rw [hlen]; omega) (by decide)

theorem guard_keeps {p : Position} {test : List Statement} {condition : Id}
    (h : w.Tracked base (test.flatMap Statement.defines ++ rest)) (hs : ∀ s ∈ test, s.IsCode) :
    Leads (edit (Draft.guardStatement p test condition)) w (fun _ w' => w'.Tracked base rest)
      (Workspace.Lost base) := by
  have hl : Ledger base w.draft (test.flatMap Statement.defines ++ (w.pending ++ rest)) := by
    refine h.perm ?_
    simp only [← append_assoc]
    exact perm_append_comm.append_right _
  exact edit_leads <| (Draft.guardStatement_keeps hl hs).mono (fun _ _ h => h)
    fun d => lost_of_spilled

end Instrumenting

open Instrumenting

def Check.Keeps (c : Check) : Prop :=
  ∀ base rest p (w : Workspace), w.Tracked base rest →
    Leads (c.visit p) w (fun _ w' => w'.Tracked base rest) (Workspace.Lost base)

namespace DescriptorIndexing

variable {base : Opening} {d : Draft} {held : List Definition}

theorem unsigned_grows (type : Instruction) (word index : Id) (h : Ledger base d held) :
    Leads (unsigned type word index) d (fun r d' => (∀ s ∈ r.2, s.IsCode)
      ∧ Draft.Grown base held d d' (r.2.flatMap Statement.defines)) (Spilled base held) := by
  unfold unsigned
  split
  case isTrue =>
    refine .bind <| (Draft.allocateTyped_grows word h).weaken fun cast d' hd => .pure ⟨?_, hd⟩
    simpa using .new rfl rfl (show _ ≤ 4 by decide) (show 4 < _ by decide) (by decide)
  case isFalse => exact .pure ⟨by simp, h, rfl⟩

theorem arguments_grows (array : DescriptorArray) (offset : Nat) (index : Id)
    (h : Ledger base d held) :
    Leads (arguments array offset index) d
      (fun r d' => r.length = 5 ∧ Draft.Grown base held d d' []) (Spilled base held) := by
  refine .bind <| (Draft.constantWord_grows _ h).weaken fun _ d₁ h₁ => ?_
  refine .bind <| (Draft.constantWord_grows _ h₁.ledger).weaken fun _ d₂ h₂ => ?_
  refine .bind <| (Draft.constantWord_grows _ h₂.ledger).weaken fun _ d₃ h₃ => ?_
  refine .bind <| (Draft.constantWord_grows _ h₃.ledger).weaken fun _ d₄ h₄ => ?_
  exact .pure ⟨rfl, h₄.ledger, by rw [h₄.functions, h₃.functions, h₂.functions, h₁.functions]⟩

theorem instrument_keeps {rest : List Definition} {w : Workspace} {p : Position} {s : Statement}
    (type : Instruction) (array : DescriptorArray) (offset : Nat) (index : Id)
    (h : w.Tracked base rest) (hs : w.draft.statement? p = some s) :
    Leads (instrument p type array offset index) w (fun _ w' => w'.Tracked base rest)
      (Workspace.Lost base) := by
  refine .bind <| (edit_grows_nil (Draft.typeWord_grows h)).weaken fun word w₁ h₁ => ?_
  refine .bind <| (edit_grows (unsigned_grows type word index h₁.tracked)).weaken
    fun (index, cast) w₂ ⟨hc, h₂⟩ => ?_
  refine .bind <| (edit_grows (arguments_grows array offset index h₂.tracked)).weaken
    fun arguments w₃ ⟨ha, h₃⟩ => ?_
  refine .bind <| (callHelper_grows helper h₃.tracked (by simp [ha])).weaken
    fun (safe, call) w₄ ⟨hcall, h₄⟩ => ?_
  refine .bind <| .modify <| .pure ?_
  have hg := ((h₄.trans h₃).trans h₂).trans h₁
  obtain ⟨b, hb, hat⟩ := Option.bind_eq_some_iff.mp (hg.statement? p ▸ hs)
  obtain ⟨f, hf, hb⟩ := Option.bind_eq_some_iff.mp hb
  have hblock : (w₄.draft.replaceOperand p 1 safe).block? p
      = some { b with
        body := b.body.modify p.index fun s => { s with operands := s.operands.set 1 safe } } := by
    simp [Draft.block?, Draft.replaceOperand, Draft.onBody, Draft.onFunction, hf, hb]
  refine Ledger.insert (Ledger.replaceOperand p 1 safe (hg.tracked.perm ?_)) hblock ?_
  · refine perm_iff_count.mpr fun x => ?_
    simp [Workspace.pending]
    omega
  · simpa [or_imp, forall_and, hcall] using hc

theorem visit_cases {m : Module} {settings : Settings} {p : Position} {w : Workspace}
    {done : Option Position → Workspace → Prop} {failed : Workspace → Prop}
    (passed : ∀ notes, done none { w with notes := notes }) (fault : failed w)
    (instrumented : ∀ s type array index, w.draft.statement? p = some s →
      Leads (instrument p type array (s.origin.getD 0) index) w (fun q => done (some q)) failed) :
    Leads ((check m settings).visit p) w done failed := by
  have hpass : done none w := passed w.notes
  refine .bind <| .get ?_
  split
  case h_2 => exact .pure hpass
  case h_1 s hs =>
    split
    case isFalse => exact .pure hpass
    case isTrue =>
      split
      case h_2 => exact .pure hpass
      case h_1 =>
        split
        case h_2 => exact .pure hpass
        case h_1 array _ =>
          refine .bind <| ofChecked_leads (fun type _ => ?_) fault
          obtain _ | type := type
          · exact .bind <| report_leads <| .pure (passed _)
          · refine .bind <| ofChecked_leads (fun inBounds _ => ?_) fault
            split
            · exact .pure hpass
            · exact .map <| instrumented s type array _ hs

theorem visit_keeps (m : Module) (settings : Settings) : (check m settings).Keeps := by
  intro base rest p w h
  exact visit_cases (fun _ => h) ⟨rest, h⟩ fun s type array index hs => instrument_keeps type array
    _ index h hs

end DescriptorIndexing

namespace BufferAddress

theorem arguments_grows {base : Opening} {d : Draft} {held : List Definition} (offset : Nat)
    (address : Id) (size : Nat) (isStore : Bool) (h : Ledger base d held) :
    Leads (arguments offset address size isStore) d
      (fun r d' => r.length = 4 ∧ Draft.Grown base held d d' []) (Spilled base held) := by
  refine .bind <| (Draft.constantWord_grows _ h).weaken fun _ d₁ h₁ => ?_
  refine .bind <| (Draft.constantWord_grows _ h₁.ledger).weaken fun _ d₂ h₂ => ?_
  refine .bind <| (Draft.constantWord_grows _ h₂.ledger).weaken fun _ d₃ h₃ => ?_
  exact .pure ⟨rfl, h₃.ledger, by rw [h₃.functions, h₂.functions, h₁.functions]⟩

theorem instrument_keeps {base : Opening} {rest : List Definition} {w : Workspace} (p : Position)
    (offset : Nat) (pointer : Id) (size : Nat) (isStore : Bool) (h : w.Tracked base rest) :
    Leads (instrument p offset pointer size isStore) w (fun _ w' => w'.Tracked base rest)
      (Workspace.Lost base) := by
  refine .bind <| (edit_grows_nil (Draft.typeInt_grows 64 false h)).weaken
    fun addressType w₁ h₁ => ?_
  refine .bind <| (edit_grows_nil (Draft.typeBool_grows h₁.tracked)).weaken fun boolType w₂ h₂ => ?_
  refine .bind <| (edit_allocateTyped_grows addressType h₂.tracked).weaken fun address w₃ h₃ => ?_
  refine .bind <| (edit_grows (arguments_grows offset address size isStore h₃.tracked)).weaken
    fun arguments w₄ ⟨ha, h₄⟩ => ?_
  refine .bind <| (callHelper_grows helper h₄.tracked (by simp [ha])).weaken
    fun (condition, call) w₅ ⟨hcall, h₅⟩ => ?_
  have hconvert : (Statement.new .convertPtrToU (some addressType) (some address)
      [pointer]).IsCode :=
    .new rfl rfl (show _ ≤ 4 by decide) (show 4 < _ by decide) (by decide)
  refine guard_keeps (((h₅.trans h₄).trans h₃).tracked.perm ?_) (by simp [hconvert, hcall])
  refine perm_iff_count.mpr fun x => ?_
  simp only [flatMap_cons, flatMap_nil, count_append, append_nil, nil_append]
  rw [show (Statement.new .convertPtrToU (some addressType) (some address) [pointer]).defines
    = [(address, some addressType)] from rfl]
  omega

theorem visit_cases {m : Module} {p : Position} {w : Workspace}
    {done : Option Position → Workspace → Prop} {failed : Workspace → Prop}
    (passed : ∀ notes, done none { w with notes := notes }) (fault : failed w)

    (instrumented : ∀ s isStore pointer size notes, w.draft.statement? p = some s →
      s.op?.bind isStore? = some isStore →
      Leads (instrument p (s.origin.getD 0) pointer size isStore) { w with notes := notes }
      (fun q => done (some q)) failed) :
    Leads ((check m).visit p) w done failed := by
  have hpass : done none w := passed w.notes
  refine .bind <| .get ?_
  dsimp only
  split
  case h_2 => exact .pure hpass
  case h_1 s hs =>
    split
    case h_2 => exact .pure hpass
    case h_1 isStore hstore =>
      split
      case h_2 => exact .pure hpass
      case h_1 =>
        refine .bind <| ofChecked_leads (fun type _ => ?_) fault
        obtain _ | type := type
        · exact .pure hpass
        · dsimp only
          split
          case isFalse => exact .bind <| report_leads <| .pure (passed _)
          case isTrue =>
            refine .bind <| ofChecked_leads (fun shape _ => ?_) fault
            exact .bind <| report_leads <| .map <| instrumented s isStore _ _ _ hs hstore

theorem visit_keeps (m : Module) : (check m).Keeps := by
  intro base rest p w h
  exact visit_cases (fun _ => h) ⟨rest, h⟩ fun s isStore pointer size notes _ _ =>
    instrument_keeps p _ pointer size isStore h

end BufferAddress

namespace RayQuery

theorem instrument_keeps {base : Opening} {rest : List Definition} {w : Workspace} (p : Position)
    (offset : Nat) {ray : List Id} (hr : ray.length = 5) (h : w.Tracked base rest) :
    Leads (instrument p offset ray) w (fun _ w' => w'.Tracked base rest) (Workspace.Lost base) := by
  refine .bind <| (edit_grows_nil (Draft.typeBool_grows h)).weaken fun boolType w₁ h₁ => ?_
  refine .bind <| (edit_grows_nil (Draft.constantWord_grows _ h₁.tracked)).weaken
    fun offset w₂ h₂ => ?_
  refine .bind <| (callHelper_grows helper h₂.tracked (by simp [hr])).weaken
    fun (condition, call) w₃ ⟨hcall, h₃⟩ => ?_
  exact guard_keeps (by simpa using h₃.tracked) (by simpa using hcall)

theorem visit_cases {p : Position} {w : Workspace} {done : Option Position → Workspace → Prop}
    {failed : Workspace → Prop} (passed : ∀ notes, done none { w with notes := notes })
    (fault : failed w)

    (instrumented : ∀ s ray, w.draft.statement? p = some s → s.is .rayQueryInitializeKHR = true →
      ray.length = 5 → Leads (instrument p (s.origin.getD 0) ray) w (fun q => done (some q))
      failed) :
    Leads (check.visit p) w done failed := by
  have hpass : done none w := passed w.notes
  refine .bind <| .get ?_
  dsimp only
  split
  case h_2 => exact .pure hpass
  case h_1 s hs =>
    split
    case isFalse => exact .pure hpass
    case isTrue hstart =>
      split
      case h_2 => exact .throw fault
      case h_1 =>
        split
        case isFalse => exact .bind <| report_leads <| .pure (passed _)
        case isTrue => exact .map <| instrumented s _ hs hstart rfl

theorem visit_keeps : check.Keeps := by
  intro base rest p w h
  exact visit_cases (fun _ => h) ⟨rest, h⟩ fun s ray _ _ hr => instrument_keeps p _ hr h

end RayQuery

namespace Check

variable {c : Check} {base : Opening} {rest : List Definition} {w : Workspace}

section

variable (inv : Nat → Workspace → Prop) {failed : Workspace → Prop}
  (visit : ∀ w p b t count, inv count w → w.draft.block? p = some b → b.body[p.index]? = some t →
    t.origin.isSome → Leads (c.visit p) w (fun next => inv (count + next.toList.length)) failed)

include visit

-- A run keeps what every visit keeps. The invariant may count the statements that are instrumented.
theorem scan_leads (limit : Option Nat) (steps : Nat) (p : Position) (count : Nat)
    (h : inv count w) :
    Leads (c.scan limit steps p count) w inv failed := by
  induction steps generalizing p count w
  case zero => exact .pure h
  case succ steps hi =>
    refine .bind <| .get ?_
    dsimp only
    split
    case h_1 => exact .pure h
    case h_2 b hb =>
      split
      case h_1 => exact hi _ _ h
      case h_2 t ht =>
        split
        case isFalse => exact .bind <| .pure <| hi _ _ h
        case isTrue ho =>
          have hv := visit w p b t count h hb ht (Bool.and_eq_true_iff.mp ho).left
          refine .bind <| hv.weaken fun next w' h' => ?_
          cases next <;> exact hi _ _ h'

theorem run_leads (limit : Option Nat) (h : inv 0 w) : Leads (c.run limit) w inv failed := by
  refine .bind <| .get <| .foldlM (fun count function _ w h => ?_) h
  exact .bind <| .get <| scan_leads inv visit limit _ _ count h

end

theorem Keeps.run (hc : c.Keeps) (limit : Option Nat) (h : w.Tracked base rest) :
    Leads (c.run limit) w (fun _ w' => w'.Tracked base rest) (Workspace.Lost base) :=
  run_leads (fun _ w => w.Tracked base rest) (fun w p _ _ _ h _ _ _ => hc base rest p w h) limit h

end Check

namespace Pipeline

variable {m : Module} {s : Settings}

theorem forall_checks {P : Check → Prop} (hd : P (DescriptorIndexing.check m s))
    (hb : P (BufferAddress.check m)) (hr : P RayQuery.check) : ∀ c ∈ checks m s, P c := by
  intro c hc
  simp only [checks, mem_append] at hc
  obtain (hc | hc) | hc := hc <;> split at hc <;> simp at hc <;> subst hc
  · exact hd
  · exact hb
  · exact hr

theorem foldlM_keeps {inv failed : Workspace → Prop} {cs : List Check} {w : Workspace}
    (hnotes : ∀ (w : Workspace) notes, inv w → inv { w with notes := notes })
    (hrun : ∀ c ∈ cs, ∀ w, inv w → Leads (c.run (limit? s)) w (fun _ => inv) failed) (total : Nat)
    (h : inv w) :
    Leads (cs.foldlM (fun total c => return total + (← runCheck (limit? s) c)) total) w
      (fun _ => inv) failed := by
  refine .foldlM (fun total c hc w h => ?_) h
  refine .bind <| .bind <| (hrun c hc w h).weaken fun count w' h => ?_
  exact .bind <| report_leads <| .pure <| .pure <| hnotes w' _ h

theorem checks_keep (m : Module) (s : Settings) : ∀ c ∈ checks m s, c.Keeps :=
  forall_checks (DescriptorIndexing.visit_keeps m s) (BufferAddress.visit_keeps m)
    RayQuery.visit_keeps

theorem runChecks_keeps {base : Opening} {rest : List Definition} {w : Workspace} (m : Module)
    (s : Settings) (h : w.Tracked base rest) :
    Leads (runChecks m s) w (fun _ w' => w'.Tracked base rest) (Workspace.Lost base) :=
  foldlM_keeps (fun _ _ h => h) (fun c hc _ => (checks_keep m s c hc).run (limit? s)) 0 h

end Pipeline
end Shader
