import Shader.Proofs.Draft.Stable
import Shader.Proofs.Instrument.Failure
import Shader.Proofs.Instrument.Pipeline

namespace Shader

open List

-- Apart from the code the draft is only extended.
def Draft.Recodes (d d' : Draft) : Prop :=
  { d with functions := d'.functions }.Extends d'

def Workspace.Recodes (w w' : Workspace) : Prop :=
  w.draft.Recodes w'.draft

namespace Draft

variable {d d' : Draft}

theorem Extends.recodes (h : d.Extends d') : d.Recodes d' :=
  ⟨h.capabilities, h.globals, by rw [h.rest]⟩

instance : Std.Refl Recodes :=
  ⟨fun d => (refl d : d.Extends d).recodes⟩

instance : IsTrans Draft Recodes :=
  ⟨fun _ _ _ h h' => ⟨h.capabilities.trans h'.capabilities, h.globals.trans h'.globals, by
    rw [h'.rest, h.rest]⟩⟩

theorem Recodes.entryPoints (h : d.Recodes d') : d'.entryPoints = d.entryPoints := by
  rw [h.rest]

theorem Recodes.version (h : d.Recodes d') : d'.version = d.version := by
  rw [h.rest]

theorem guardStatement_recodes (p : Position) (test : List Statement) (condition : Id) :
    Within Recodes (guardStatement p test condition) := by
  have hallocate : Within Recodes allocate := allocate_within.mono fun _ _ => Extends.recodes
  refine .bind .get fun d => ?_
  split
  case h_2 => exact .throw _
  case h_1 target _ =>
    refine .bind ((mergedResult_within target).mono fun _ _ => Extends.recodes) fun merged => ?_
    refine .bind hallocate fun valid => ?_
    refine .bind hallocate fun invalid => ?_
    refine .bind hallocate fun merge => ?_
    exact .bind (.modify fun d => ⟨prefix_rfl, prefix_rfl, rfl⟩) fun _ => .pure _

end Draft

namespace Workspace

variable {w w' : Workspace}

theorem Extends.recodes (h : w.Extends w') : w.Recodes w' :=
  h.draft.recodes

instance : Std.Refl Recodes :=
  ⟨fun w => refl w.draft⟩

instance : IsTrans Workspace Recodes :=
  ⟨fun w w' w'' => IsTrans.trans w.draft w'.draft w''.draft⟩

end Workspace

open Instrumenting Draft

theorem Instrumenting.bind_recodes {α β : Type} {e : Instrumenting α} {f : α → Instrumenting β}
    (h : Within Workspace.Extends e) (hf : ∀ a, Within Workspace.Recodes (f a)) :
    Within Workspace.Recodes (e >>= f) :=
  .bind (h.mono fun _ _ => Workspace.Extends.recodes) hf

theorem Instrumenting.edit_recodes {α : Type} {e : Editing α} (h : Within Draft.Recodes e) :
    Within Workspace.Recodes (edit e) :=
  fun w => edit_leads (h w.draft)

def Check.Recodes (c : Check) : Prop :=
  ∀ p, Within Workspace.Recodes (c.visit p)

theorem DescriptorIndexing.visit_recodes (m : Module) (settings : Settings) :
    (check m settings).Recodes := by
  intro p w
  refine visit_cases (fun _ => refl w.draft) (refl w) fun s type array index _ => ?_
  have h : Within Workspace.Recodes (instrument p type array (s.origin.getD 0) index) := by
    refine bind_recodes (edit_within (typeInt_within 32 false)) fun word => ?_
    refine bind_recodes (edit_within (unsigned_within type word index)) fun (index, cast) => ?_
    refine bind_recodes (edit_within (arguments_within array _ index)) fun arguments => ?_
    refine bind_recodes (callHelper_within helper word arguments) fun (safe, call) => ?_
    exact .bind (.modify fun w => ⟨prefix_rfl, prefix_rfl, rfl⟩) fun _ => .pure _
  exact h w

theorem BufferAddress.visit_recodes (m : Module) : (check m).Recodes := by
  intro p w
  refine visit_cases (fun _ => refl w.draft) (refl w) fun s isStore pointer size notes _ _ => ?_
  have h : Within Workspace.Recodes (instrument p (s.origin.getD 0) pointer size isStore) := by
    refine bind_recodes (edit_within (typeInt_within 64 false)) fun addressType => ?_
    refine bind_recodes (edit_within (findOrAddGlobal_within _ _ _)) fun boolType => ?_
    refine bind_recodes (edit_within (allocateTyped_within addressType)) fun address => ?_
    refine bind_recodes (edit_within (arguments_within _ address size isStore)) fun arguments => ?_
    refine bind_recodes (callHelper_within helper boolType arguments) fun (condition, call) => ?_
    exact edit_recodes (guardStatement_recodes p _ _)
  exact h { w with notes := notes }

theorem RayQuery.visit_recodes : check.Recodes := by
  intro p w
  refine visit_cases (fun _ => refl w.draft) (refl w) fun s ray _ _ _ => ?_
  have h : Within Workspace.Recodes (instrument p (s.origin.getD 0) ray) := by
    refine bind_recodes (edit_within (findOrAddGlobal_within _ _ _)) fun boolType => ?_
    refine bind_recodes (edit_within (constantWord_within _)) fun offset => ?_
    refine bind_recodes (callHelper_within helper boolType _) fun (condition, call) => ?_
    exact edit_recodes (guardStatement_recodes p _ _)
  exact h w

theorem Pipeline.runChecks_recodes (m : Module) (s : Settings) (w : Workspace) :
    Leads (runChecks m s) w (fun _ => w.Recodes) w.Recodes := by
  have hchecks : ∀ c ∈ checks m s, c.Recodes := forall_checks
    (DescriptorIndexing.visit_recodes m s) (BufferAddress.visit_recodes m) RayQuery.visit_recodes
  refine foldlM_keeps (fun _ _ h => h) (fun c hc w₁ h₁ => ?_) 0 (refl w)
  refine c.run_leads (fun _ => w.Recodes) (fun w₂ p _ _ _ h₂ _ _ _ => ?_) (limit? s) h₁
  exact (hchecks c hc p w₂).mono (fun _ _ h => IsTrans.trans _ _ _ h₂ h)
    fun _ h => IsTrans.trans _ _ _ h₂ h

theorem Pipeline.run_recodes {p : Pipeline} {s : Settings} {count : Nat}
    (h : (p.run s).1 = .ok count) :
    p.draft.Recodes (p.run s).2.draft :=
  step_ok (runChecks_recodes p.analysis s p.toWorkspace) h

namespace Linking

theorem isModuleVariable_rename (f : Id → Id) (s : Statement) :
    isModuleVariable (s.rename f) = isModuleVariable s := by
  unfold isModuleVariable Statement.is
  rw [Statement.op?_rename]
  by_cases ho : s.op? = some .variable
  case neg => simp [beq_false_of_ne ho]
  case pos => rw [Statement.head?_operands_rename (Statement.isId_eq ho 0)]

def moduleVariables (globals : List Statement) : List Id :=
  (globals.filter isModuleVariable).filterMap Statement.resultId

theorem moduleVariables_append (globals globals' : List Statement) :
    moduleVariables (globals ++ globals')
      = moduleVariables globals ++ moduleVariables globals' := by
  simp [moduleVariables]

theorem newVariables_eq_moduleVariables (m : Renaming) (kept : List Statement) :
    newVariables m kept = moduleVariables (kept.map (Statement.rename m.image)) := by
  have hcomp : isModuleVariable ∘ Statement.rename m.image = isModuleVariable :=
    funext (isModuleVariable_rename m.image)
  rw [moduleVariables, filter_map, hcomp, filterMap_map]
  rfl

theorem listVariables_append (new new' : List Id) (d : Draft) :
    (listVariables (new ++ new') d).entryPoints
      = (listVariables new' (listVariables new d)).entryPoints := by
  unfold listVariables
  split <;> simp

theorem entryPoints_listVariables_congr {d d' : Draft} (new : List Id) (hv : d'.version = d.version)
    (he : d'.entryPoints = d.entryPoints) :
    (listVariables new d').entryPoints = (listVariables new d).entryPoints := by
  unfold listVariables
  rw [hv, he]
  split <;> simp [he]

end Linking

-- The entry points of `d'` list the variables that it has and `d` has not.
structure Draft.Lists (d d' : Draft) : Prop where
  version     : d'.version = d.version
  entryPoints : ∃ new, d'.globals = d.globals ++ new
    ∧ d'.entryPoints = (Linking.listVariables (Linking.moduleVariables new) d).entryPoints

namespace Draft.Lists

variable {d d' d'' : Draft}

theorem refl (d : Draft) : d.Lists d := by
  refine ⟨rfl, [], by simp, ?_⟩
  unfold Linking.listVariables
  split <;> simp [Linking.moduleVariables]

theorem trans (h : d.Lists d') (h' : d'.Lists d'') : d.Lists d'' := by
  obtain ⟨new, hnew, he⟩ := h.entryPoints
  obtain ⟨new', hnew', he'⟩ := h'.entryPoints
  refine ⟨h'.version.trans h.version, new ++ new', by rw [hnew', hnew, append_assoc], ?_⟩
  have hversion : (Linking.listVariables (Linking.moduleVariables new) d).version = d.version :=
    congrArg Header.version (Linking.header_listVariables _ d)
  rw [he', Linking.moduleVariables_append, Linking.listVariables_append]
  exact Linking.entryPoints_listVariables_congr _ (h.version.trans hversion.symm) he

end Draft.Lists

theorem Linking.HelperLinked.lists {host h d : Draft} {request : Id} {kept found : List Statement}
    {m : Renaming} (hl : HelperLinked host request h kept found m d) : host.Lists d where
  version := congrArg Header.version hl.header
  entryPoints := ⟨_, hl.globals, by rw [hl.entryPoints, newVariables_eq_moduleVariables]⟩

theorem Statement.length_append_operands (s : Statement) (ids : List Id) :
    { s with operands := s.operands ++ ids }.length = s.length + ids.length := by
  simp [length, Nat.add_assoc]

theorem Word.high_ofHalves_eq_zero {h l : Nat} (hh : 2 ^ 16 ∣ h) (hl : l < 2 ^ 16) :
    (ofHalves h l).high = 0 := by
  obtain ⟨k, rfl⟩ := hh
  rw [ofHalves, high, UInt32.toNat_ofNat']
  omega

namespace Draft

variable {d : Draft}

-- Entry points are all that can have grown too long to be read again.
theorem WellFormed.read_words_iff (hw : d.WellFormed) (hs : d.Sound) (hx : d.Indexed) :
    (∃ b d', Binary.read d.words = .ok b ∧ ofBinary b = .ok d' ∧ d'.forget = d.forget)
      ↔ ∀ e ∈ d.entryPoints, e.length ≤ 65535 := by
  constructor
  case mpr => exact fun he => hw.read_words hs hx fun e hmem => Nat.lt_succ_of_le (he e hmem)
  -- Reading gives statements that fit, and lengths survive what `forget` drops.
  case mp =>
    rintro ⟨b, d', hread, hd', hforget⟩ e he
    have hentries : d'.entryPoints.map Statement.forget = d.entryPoints.map Statement.forget :=
      congrArg Draft.entryPoints hforget
    obtain ⟨e', he', heq⟩ := mem_map.mp (hentries ▸ mem_map_of_mem he)
    have hlength : e'.length = e.length := show e'.forget.length = e.forget.length by rw [heq]
    exact hlength ▸ Nat.le_of_lt_succ (fits_of_ofBinary hd' (Binary.read_valid hread) e' he')

-- A length that is a multiple of `2 ^ 16` is written as 0, which no instruction has.
theorem read_words_eq_zeroLength {e : Statement} {rest : List Statement}
    (hd : d.capabilities ++ d.extensions ++ d.imports ++ d.memoryModel = [])
    (he : d.entryPoints = e :: rest) (ho : e.opcode < 2 ^ 16) (hl : 2 ^ 16 ∣ e.length) :
    Binary.read d.words = .error (.framing 0 Header.length .zeroLength) := by
  rw [Binary.read, words_eq, Header.read?_words rfl, statements, declarations, hd, he]
  simp only [drop_left' (show d.header.words.length = Header.length from rfl), nil_append,
    cons_append, flatMap_cons, Statement.words_eq]
  simp [bind, Except.bind, Binary.readFrom, Binary.Accepted.push, Word.high_ofHalves_eq_zero hl ho]

end Draft
end Shader
