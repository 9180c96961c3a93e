import Shader.Draft.Split
import Shader.Instrument.Link
import Shader.Proofs.Draft.Definition
import Shader.Proofs.Opcode

namespace Shader

namespace Statement

def outcome (s : Statement) : Outcome :=
  s.op?.elim .nothing Op.outcome

structure WellFormed (s : Statement) : Prop where
  opcode_lt : s.opcode < 2 ^ 16
  type      : s.resultType.isSome = s.outcome.hasType
  result    : s.resultId.isSome = s.outcome.hasResult
  least     : s.op?.elim 1 Op.leastLength ≤ s.length

-- The length has half a word in the encoding.
def Fits (s : Statement) : Prop :=
  s.length < 2 ^ 16

-- The section that the statement is read into. A function is no declaration, nor is its end.
def section? (s : Statement) : Option Section :=
  match s.op? with
  | some .function | some .functionEnd => none
  | some op => some op.layoutSection
  | none => some .globals

def BelongsTo (s : Statement) (sec : Section) : Prop :=
  s.section? = some sec

structure IsCode (s : Statement) : Prop extends WellFormed s where
  fits   : s.Fits
  label  : s.op? ≠ some .label
  ending : s.op? ≠ some .functionEnd

@[simp]
theorem op?_new (op : Op) (type id : Option Id) (operands : List Word) :
    (new op type id operands).op? = some op :=
  Op.ofNumber?_number op

theorem WellFormed.new {op : Op} {type id : Option Id} {operands : List Word}
    (ht : type.isSome = op.outcome.hasType) (hr : id.isSome = op.outcome.hasResult)
    (hl : op.leastLength ≤ (new op type id operands).length) :
    (new op type id operands).WellFormed where
  opcode_lt := op.number_lt
  type := by rw [outcome, op?_new]; exact ht
  result := by rw [outcome, op?_new]; exact hr
  least := by rw [op?_new]; exact hl

theorem IsCode.new {op : Op} {type id : Option Id} {operands : List Word}
    (ht : type.isSome = op.outcome.hasType) (hr : id.isSome = op.outcome.hasResult)
    (hl : op.leastLength ≤ (new op type id operands).length) (hf : (new op type id operands).Fits)
    (hop : op ≠ .label ∧ op ≠ .functionEnd) : (new op type id operands).IsCode where
  toWellFormed := .new ht hr hl
  fits := hf
  label := by simpa using hop.left
  ending := by simpa using hop.right

theorem WellFormed.of_same {s s' : Statement} (h : s.WellFormed) (ho : s'.opcode = s.opcode)
    (ht : s'.resultType.isSome = s.resultType.isSome) (hr : s'.resultId.isSome = s.resultId.isSome)
    (hl : s.length ≤ s'.length) : s'.WellFormed where
  opcode_lt := ho ▸ h.opcode_lt
  type := by simpa [outcome, op?, ho, ht] using h.type
  result := by simpa [outcome, op?, ho, hr] using h.result
  least := by simpa [op?, ho] using Nat.le_trans h.least hl

theorem IsCode.of_same {s s' : Statement} (h : s.IsCode) (ho : s'.opcode = s.opcode)
    (ht : s'.resultType.isSome = s.resultType.isSome) (hr : s'.resultId.isSome = s.resultId.isSome)
    (hl : s'.length = s.length) : s'.IsCode where
  toWellFormed := h.toWellFormed.of_same ho ht hr (Nat.le_of_eq hl.symm)
  fits := Nat.lt_of_le_of_lt (Nat.le_of_eq hl) h.fits
  label := by simpa [op?, ho] using h.label
  ending := by simpa [op?, ho] using h.ending

end Statement

namespace FunctionDraft

structure WellFormed (f : FunctionDraft) : Prop where
  definition : f.definition.WellFormed ∧ f.definition.Fits ∧ f.definition.op? = some .function
  parameters : ∀ s ∈ f.parameters, s.WellFormed ∧ s.Fits ∧ s.op?.any OpenFunction.isHead
  code       : ∀ b ∈ f.blocks, ∀ s ∈ b.body, s.IsCode
  close      : f.close.WellFormed ∧ f.close.Fits ∧ f.close.op? = some .functionEnd

theorem WellFormed.resultId {f : FunctionDraft} (h : f.WellFormed) :
    f.definition.resultId = some f.id := by
  have hr := h.definition.left.result
  rw [Statement.outcome, h.definition.right.right] at hr
  obtain ⟨x, hx⟩ := Option.isSome_iff_exists.mp hr
  rw [FunctionDraft.id, hx]
  rfl

end FunctionDraft

namespace Draft

def inSection (d : Draft) : Section → List Statement
  | .capabilities => d.capabilities
  | .extensions => d.extensions
  | .imports => d.imports
  | .memoryModel => d.memoryModel
  | .entryPoints => d.entryPoints
  | .modes => d.modes
  | .debug => d.debug
  | .annotations => d.annotations
  | .globals => d.globals

-- The statements of entry points may have grown too long, as linking lists variables there.
-- The statements of entry points may have grown too long, as linking lists variables there.
structure WellFormed (d : Draft) : Prop where
  sections  : ∀ sec, ∀ s ∈ d.inSection sec, s.WellFormed ∧ s.BelongsTo sec
  fits      : ∀ sec, sec ≠ .entryPoints → ∀ s ∈ d.inSection sec, s.Fits
  functions : ∀ f ∈ d.functions, f.WellFormed

@[simp]
theorem inSection_push (d : Draft) (s : Statement) (sec sec' : Section) :
    (d.push s sec).inSection sec' = d.inSection sec' ++ if sec = sec' then [s] else [] := by
  cases sec <;> cases sec' <;> simp [push, inSection]

@[simp]
theorem functions_push (d : Draft) (s : Statement) (sec : Section) :
    (d.push s sec).functions = d.functions := by
  cases sec <;> rfl

@[simp]
theorem bound_push (d : Draft) (s : Statement) (sec : Section) :
    (d.push s sec).bound = d.bound := by
  cases sec <;> rfl

@[simp]
theorem resultTypes_push (d : Draft) (s : Statement) (sec : Section) :
    (d.push s sec).resultTypes = d.resultTypes := by
  cases sec <;> rfl

theorem noteType_eq (d : Draft) (s : Statement) :
    d.noteType s = { d with resultTypes := (d.noteType s).resultTypes } := by
  unfold noteType
  split <;> rfl

@[simp]
theorem definitions_noteType (d : Draft) (s : Statement) :
    (d.noteType s).definitions = d.definitions := by
  rw [noteType_eq]
  rfl

@[simp]
theorem inSection_noteType (d : Draft) (s : Statement) (sec : Section) :
    (d.noteType s).inSection sec = d.inSection sec := by
  rw [noteType_eq]
  cases sec <;> rfl

@[simp]
theorem functions_noteType (d : Draft) (s : Statement) :
    (d.noteType s).functions = d.functions := by
  rw [noteType_eq]

theorem noteType_push (d : Draft) (s t : Statement) (sec : Section) :
    (d.push s sec).noteType t = (d.noteType t).push s sec := by
  unfold noteType
  split <;> cases sec <;> rfl

@[simp]
theorem header_noteType (d : Draft) (s : Statement) : (d.noteType s).header = d.header := by
  rw [noteType_eq]
  rfl

end Draft

theorem forall_mem_modify {α : Type} {P : α → Prop} {l : List α} {i : Nat} {g : α → α}
    (h : ∀ a ∈ l, P a) (hg : ∀ a, l[i]? = some a → P a → P (g a)) : ∀ a ∈ l.modify i g, P a := by
  induction l generalizing i
  case nil => simp
  case cons b l hi =>
    simp only [List.forall_mem_cons] at h
    cases i
    case zero => simpa using ⟨hg b rfl h.left, h.right⟩
    case succ i => simpa using ⟨h.left, hi h.right hg⟩

namespace Draft.WellFormed

variable {d : Draft} {p : Position}

theorem push {s : Statement} {sec : Section} (h : d.WellFormed) (hs : s.WellFormed)
    (hb : s.BelongsTo sec) (hf : s.Fits) : (d.push s sec).WellFormed where
  sections sec' s' hs' := by
    simp only [inSection_push, List.mem_append] at hs'
    cases hs'
    case inl hs' => exact h.sections sec' s' hs'
    case inr hs' => split at hs' <;> simp_all
  fits sec' he s' hs' := by
    simp only [inSection_push, List.mem_append] at hs'
    cases hs'
    case inl hs' => exact h.fits sec' he s' hs'
    case inr hs' => split at hs' <;> simp_all
  functions := by simpa using h.functions

theorem pushFunction {f : FunctionDraft} (h : d.WellFormed) (hf : f.WellFormed) :
    (d.pushFunction f).WellFormed where
  sections := h.sections
  fits := h.fits
  functions := by
    simp only [Draft.pushFunction, List.mem_append, List.mem_singleton]
    rintro g (hg | rfl)
    · exact h.functions g hg
    · exact hf

theorem onFunction {i : Nat} {g : FunctionDraft → FunctionDraft} (h : d.WellFormed)
    (hg : ∀ f, d.functions[i]? = some f → f.WellFormed → (g f).WellFormed) :
    (d.onFunction i g).WellFormed where
  sections := h.sections
  fits := h.fits
  functions := forall_mem_modify h.functions hg

theorem onBody {g : List Statement → List Statement} (h : d.WellFormed)
    (hg : ∀ body, (∀ s ∈ body, s.IsCode) → ∀ s ∈ g body, s.IsCode) : (d.onBody p g).WellFormed := by
  refine h.onFunction fun f _ hf => { hf with code := ?_ }
  exact forall_mem_modify hf.code fun b _ hb => hg b.body hb

theorem insertBefore {inserted : List Statement} (h : d.WellFormed)
    (hi : ∀ s ∈ inserted, s.IsCode) : (d.insertBefore p inserted).WellFormed := by
  refine h.onBody fun body hb s hs => ?_
  simp only [List.mem_append] at hs
  obtain (hs | hs) | hs := hs
  · exact hb s (List.mem_of_mem_take hs)
  · exact hi s hs
  · exact hb s (List.mem_of_mem_drop hs)

theorem replaceOperand {k : Nat} {w : Word} (h : d.WellFormed) :
    (d.replaceOperand p k w).WellFormed := by
  refine h.onBody fun body hb => forall_mem_modify hb fun s _ hs => ?_
  exact hs.of_same rfl rfl rfl (by simp [Statement.length])

theorem listVariables {new : List Id} (h : d.WellFormed) :
    (Linking.listVariables new d).WellFormed := by
  unfold Linking.listVariables
  split
  case isFalse => exact h
  case isTrue =>
    refine ⟨fun sec s hs => ?_, fun sec he s hs => ?_, h.functions⟩
    · cases sec
      case entryPoints =>
        obtain ⟨s', hs', rfl⟩ := List.mem_map.mp hs
        have ⟨hw, hb⟩ := h.sections .entryPoints s' hs'
        exact ⟨hw.of_same rfl rfl rfl (by simp [Statement.length]), hb⟩
      all_goals exact h.sections _ _ hs
    · cases sec
      case entryPoints => exact absurd rfl he
      all_goals exact h.fits _ he s hs

end Draft.WellFormed

namespace Block

variable {b : Block} {label condition : Id} {before after test : List Statement}
  {target : Statement} {labels : GuardLabels} {merged : Option MergedResult} {P : Statement → Prop}

def added (condition : Id) (labels : GuardLabels) (merged : Option MergedResult) : List Statement :=
  [.new .branch none none [labels.merge], .new .selectionMerge none none [labels.merge, 0],
   .new .branchConditional none none [condition, labels.valid, labels.invalid]]
    ++ merged.toList.map fun m =>
      .new .phi (some m.type) (some m.result) [m.moved, labels.valid, m.null, labels.invalid]

theorem forall_guarded (hb : ∀ s ∈ before, P s) (ht : P target)
    (hm : ∀ m ∈ merged, P { target with resultId := some m.moved }) (ha : ∀ s ∈ after, P s)
    (hs : ∀ s ∈ test, P s) (hadded : ∀ s ∈ added condition labels merged, P s) :
    ∀ b ∈ guarded label before target after test condition labels merged, ∀ s ∈ b.body, P s := by
  simp only [added, List.forall_mem_append, List.forall_mem_cons] at hadded
  obtain ⟨⟨hbranch, hselect, htest, _⟩, hphi⟩ := hadded
  cases merged
  case none =>
    simp [guarded, or_imp, forall_and, hbranch, hselect, htest, ht]
    exact ⟨⟨hb, hs⟩, ha⟩
  case some m =>
    have hmoved := hm m rfl
    have hphi : P (.new .phi (some m.type) (some m.result) [m.moved, labels.valid, m.null,
        labels.invalid]) :=
      hphi _ List.mem_cons_self
    simp [guarded, or_imp, forall_and, hbranch, hselect, htest, hphi, hmoved]
    exact ⟨⟨hb, hs⟩, ha⟩

theorem forall_replacePhiParents {old new : Id} (h : ∀ s ∈ b.body, P s)

    (ho : ∀ (s : Statement) operands, operands.length = s.operands.length → P s →
      P { s with operands }) :
    ∀ s ∈ (b.replacePhiParents old new).body, P s := by
  have hlen (l : List Word) : (replaceParents old new l).length = l.length := by
    fun_induction replaceParents <;> simp_all
  intro s hs
  simp only [replacePhiParents, List.mem_append, List.mem_map] at hs
  obtain ⟨s, hs, rfl⟩ | hs := hs
  · exact ho s _ (hlen _) (h s (List.takeWhile_subset _ hs))
  · exact h s (List.dropWhile_subset _ hs)

theorem isCode_added : ∀ s ∈ added condition labels merged, s.IsCode := by
  simp only [added, List.forall_mem_append, List.forall_mem_cons, List.forall_mem_map,
    List.not_mem_nil, false_imp_iff, implies_true, and_true]
  refine ⟨⟨?_, ?_, ?_⟩, fun m _ => ?_⟩
  · exact .new rfl rfl (show _ ≤ 2 by decide) (show 2 < _ by decide) (by decide)
  · exact .new rfl rfl (show _ ≤ 3 by decide) (show 3 < _ by decide) (by decide)
  · exact .new rfl rfl (show _ ≤ 4 by decide) (show 4 < _ by decide) (by decide)
  · exact .new rfl rfl (show _ ≤ 7 by decide) (show 7 < _ by decide) (by decide)

end Block

namespace FunctionDraft

variable {f : FunctionDraft} {b : Block} {target : Statement} {block index : Nat}
  {test : List Statement} {condition : Id} {labels : GuardLabels} {merged : Option MergedResult}

theorem forall_guardAt {P : Statement → Prop} (hb : f.blocks[block]? = some b)
    (ht : b.body[index]? = some target) (h : ∀ b ∈ f.blocks, ∀ s ∈ b.body, P s)
    (hm : ∀ m ∈ merged, P { target with resultId := some m.moved }) (hs : ∀ s ∈ test, P s)
    (hadded : ∀ s ∈ Block.added condition labels merged, P s)

    (ho : ∀ (s : Statement) operands, operands.length = s.operands.length → P s →
      P { s with operands }) :
    ∀ b ∈ (f.guardAt block index test condition labels merged).blocks, ∀ s ∈ b.body, P s := by
  rw [guardAt_eq hb ht]
  have hcode := h b (List.mem_of_getElem? hb)
  simp only [replacePhiParents, List.forall_mem_map]
  intro b' hb'
  have hb' : ∀ s ∈ b'.body, P s := by
    simp only [List.mem_append] at hb'
    obtain (hb' | hb') | hb' := hb'
    · exact h b' (List.mem_of_mem_take hb')
    · exact Block.forall_guarded (fun s hs => hcode s (List.mem_of_mem_take hs))
        (hcode target (List.mem_of_getElem? ht))
        hm (fun s hs => hcode s (List.mem_of_mem_drop hs)) hs hadded b' hb'
    · exact h b' (List.mem_of_mem_drop hb')
  split
  · exact Block.forall_replacePhiParents hb' ho
  · exact hb'

theorem WellFormed.guardAt (h : f.WellFormed) (hb : f.blocks[block]? = some b)
    (ht : b.body[index]? = some target) (hm : MergedResult.Of target merged)
    (hs : ∀ s ∈ test, s.IsCode) :
    (f.guardAt block index test condition labels merged).WellFormed := by
  have hmoved (m : MergedResult) (hmem : m ∈ merged) :
      { target with resultId := some m.moved : Statement }.IsCode := by
    cases hmem
    have htarget := h.code b (List.mem_of_getElem? hb) target (List.mem_of_getElem? ht)
    exact htarget.of_same rfl rfl (by simp [hm.right]) (by simp [Statement.length, hm.right])
  have hcode : ∀ b ∈ (f.guardAt block index test condition labels merged).blocks, ∀ s ∈ b.body,
      s.IsCode :=
    forall_guardAt hb ht h.code hmoved hs Block.isCode_added
      fun s operands hl hs => hs.of_same rfl rfl rfl (by simp [Statement.length, hl])
  rw [guardAt_eq hb ht] at hcode ⊢
  exact { h with code := hcode }

end FunctionDraft
end Shader
