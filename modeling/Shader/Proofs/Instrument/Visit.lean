import Shader.Proofs.Analysis.Reading
import Shader.Proofs.Instrument.Check
import Shader.Proofs.Instrument.Code

namespace Shader

open List

namespace Draft

variable {d d' d'' : Draft} {op : Op} {type : Option Id} {id : Id} {operands : List Word}

structure Widens (d d' : Draft) : Prop where
  functions : d'.functions = d.functions
  globals   : ∀ s ∈ d.globals, s ∈ d'.globals
  bound     : d.bound ≤ d'.bound

theorem Widens.refl (d : Draft) : d.Widens d :=
  ⟨rfl, fun _ hs => hs, UInt32.le_refl _⟩

theorem Widens.trans (h : d.Widens d') (h' : d'.Widens d'') : d.Widens d'' :=
  ⟨h'.functions.trans h.functions, fun s hs => h'.globals s (h.globals s hs),
    UInt32.le_trans h.bound h'.bound⟩

def Declared (d : Draft) (op : Op) (type : Option Id) (id : Id) (operands : List Word) : Prop :=
  ∃ s ∈ d.globals, { s with origin := none } = Statement.new op type (some id) operands

theorem Declared.mono (h : d.Declared op type id operands) (hw : ∀ s ∈ d.globals, s ∈ d'.globals) :
    d'.Declared op type id operands :=
  have ⟨s, hs, heq⟩ := h
  ⟨s, hw s hs, heq⟩

def IsWord (d : Draft) (id : Id) (w : Word) : Prop :=
  ∃ type, d.Declared .typeInt none type [32, 0] ∧ d.Declared .constant (some type) id [w]

theorem IsWord.mono {w : Word} (h : d.IsWord id w) (hw : ∀ s ∈ d.globals, s ∈ d'.globals) :
    d'.IsWord id w :=
  have ⟨type, ht, hc⟩ := h
  ⟨type, ht.mono hw, hc.mono hw⟩

theorem allocate_widens : Leads allocate d (fun id d' => d.Widens d' ∧ d.bound ≤ id ∧ id < d'.bound)
    fun _ => True := by
  refine allocate_leads.mono (fun id d' ⟨hid, hd, hb⟩ => ?_) fun _ _ => trivial
  subst hid
  refine ⟨⟨by rw [hd], fun s hs => by rw [hd]; exact hs, UInt32.le_iff_toNat_le.mpr (by omega)⟩,
    UInt32.le_refl _, ?_⟩
  exact UInt32.lt_iff_toNat_lt.mpr (by omega)

theorem allocateTyped_widens (type : Id) : Leads (allocateTyped type) d
    (fun id d' => d.Widens d' ∧ d.bound ≤ id ∧ id < d'.bound) fun _ => True :=
  .bind <| allocate_widens.weaken fun _ _ ⟨hd, hid⟩ => .bind <| .modify <| .pure
    ⟨⟨hd.functions, hd.globals, hd.bound⟩, hid⟩

theorem findOrAddGlobal_widens (op : Op) (type : Option Id) (operands : List Word) :
    Leads (findOrAddGlobal op type operands) d
      (fun id d' => d.Widens d' ∧ d'.Declared op type id operands)
      fun _ => True :=
  (findOrAddGlobal_declares op type operands).mono
    (fun _ _ h => ⟨⟨h.functions, h.kept, UInt32.le_iff_toNat_le.mpr h.le⟩, h.declared⟩)
    fun _ _ => trivial

theorem typeBool_widens : Leads typeBool d (fun _ d' => d.Widens d') fun _ => True :=
  (findOrAddGlobal_widens ..).weaken fun _ _ h => h.left

theorem addCapability_widens (d : Draft) (c : Capability) : d.Widens (d.addCapability c) := by
  unfold addCapability addCapabilityWord
  split
  · exact .refl d
  · exact ⟨rfl, fun _ hs => hs, UInt32.le_refl _⟩

theorem typeInt_widens (width : Word) (signed : Bool) : Leads (typeInt width signed) d
    (fun id d' => d.Widens d' ∧ d'.Declared .typeInt none id [width, if signed then 1 else 0])
      fun _ => True := by
  by_cases hw : width = 64
  case pos =>
    simp only [typeInt, hw, ↓reduceIte]
    refine .bind <| .modify ?_
    exact (findOrAddGlobal_widens ..).weaken fun _ _ h => ⟨(addCapability_widens ..).trans h.left,
      h.right⟩
  case neg =>
    simp only [typeInt, hw, ↓reduceIte]
    exact findOrAddGlobal_widens ..

theorem constantWord_widens (w : Word) :
    Leads (constantWord w) d (fun id d' => d.Widens d' ∧ d'.IsWord id w) fun _ => True := by
  refine .bind <| (typeInt_widens 32 false).weaken fun type d₁ ⟨h₁, ht⟩ => ?_
  refine (findOrAddGlobal_widens ..).weaken fun id d₂ ⟨h₂, hc⟩ => ⟨h₁.trans h₂, type, ?_, hc⟩
  exact ht.mono h₂.globals

theorem mergedResult_widens (t : Statement) : Leads (mergedResult t) d (fun merged d' => d.Widens d'
    ∧ t.MergedBy merged ∧ ∀ m ∈ merged, d.bound ≤ m.moved ∧ m.moved < d'.bound) fun _ => True := by
  unfold mergedResult
  split
  case h_1 type result ht hr =>
    refine .bind <| (allocateTyped_widens type).weaken fun moved d₁ ⟨h₁, hlow, hhigh⟩ => ?_
    refine .bind <| (findOrAddGlobal_widens ..).weaken fun null d₂ ⟨h₂, _⟩ =>
      .pure ⟨h₁.trans h₂, ?_, ?_⟩
    · simp [Statement.MergedBy, ht, hr]
    · rintro m ⟨⟩
      exact ⟨hlow, UInt32.lt_of_lt_of_le hhigh h₂.bound⟩
  case h_2 hn =>
    refine .pure ⟨.refl d, ?_, by simp⟩
    unfold Statement.MergedBy
    split
    case h_1 ht hr => exact (hn _ _ ht hr).elim
    case h_2 => rfl

end Draft

structure Edit.Turns (e : Edit) (d : Draft) (p : Position) (b : Block) (t : Statement)
    (d' : Draft) : Prop where
  functions : ∃ f f', d.functions[p.function]? = some f ∧ e.Applies f p.block p.index b t f'
    ∧ d'.functions = d.functions.set p.function f'
  globals   : ∀ s ∈ d.globals, s ∈ d'.globals
  bound     : d.bound ≤ d'.bound

def Edit.after (e : Edit) (p : Position) : Position :=
  ⟨p.function, p.block + (e.next p.index).1, (e.next p.index).2⟩

theorem FunctionDraft.guardAt_rest (f : FunctionDraft) (block index : Nat) (test : List Statement)
    (condition : Id) (labels : GuardLabels) (merged : Option MergedResult) :
    f.guardAt block index test condition labels merged
      = { f with blocks := (f.guardAt block index test condition labels merged).blocks } := by
  unfold guardAt
  split
  · rfl
  · split <;> rfl

namespace Draft

variable {d : Draft} {p : Position} {f : FunctionDraft} {b : Block} {t : Statement} {condition : Id}

theorem guardStatement_turns (test : List Statement) (hf : d.functions[p.function]? = some f)
    (hb : f.blocks[p.block]? = some b) (ht : b.body[p.index]? = some t)
    (ho : ∃ op ∈ [Op.load, Op.store, Op.rayQueryInitializeKHR], t.op? = some op)
    (hl : b.hasLoopMerge = false) :
    Leads (guardStatement p test condition) d
      (fun q d' => ∃ g, q = (Edit.mk test condition (some g)).after p
        ∧ (Edit.mk test condition (some g)).Turns d p b t d'
        ∧ ∀ id ∈ g.1.toList ++ g.2.toList.map MergedResult.moved, d.bound ≤ id ∧ id < d'.bound)
      fun _ => True := by
  have hs : d.statement? p = some t := by simp [statement?, block?, hf, hb, ht]
  refine .bind <| .get ?_
  rw [hs]
  -- Every id is taken by moving the bound, and hence they differ.
  refine .bind <| (mergedResult_widens t).weaken ?_
  rintro merged d₁ ⟨h₁, hm, hmoved⟩
  refine .bind <| allocate_leads.mono ?_ fun _ _ => trivial
  rintro valid d₂ ⟨hv, hd₂, hb₂⟩
  refine .bind <| allocate_leads.mono ?_ fun _ _ => trivial
  rintro invalid d₃ ⟨hi, hd₃, hb₃⟩
  refine .bind <| allocate_leads.mono ?_ fun _ _ => trivial
  rintro merge d₄ ⟨hme, hd₄, hb₄⟩
  refine .bind <| .modify <| .pure ⟨(⟨valid, invalid, merge⟩, merged), rfl, ⟨?_, ?_, ?_⟩, ?_⟩
  · refine ⟨f, f.guardAt p.block p.index test condition ⟨valid, invalid, merge⟩ merged, hf, ?_, ?_⟩
    · refine ⟨hb, ht, ho, ?_, f.guardAt_rest .., ?_⟩
      · rintro _ _ ⟨⟩
        refine ⟨hm, hl, ?_, ?_, ?_⟩
        · exact fun h => by have := congrArg UInt32.toNat (hv.symm.trans (h.trans hi)); omega
        · exact fun h => by have := congrArg UInt32.toNat (hv.symm.trans (h.trans hme)); omega
        · exact fun h => by have := congrArg UInt32.toNat (hi.symm.trans (h.trans hme)); omega
      · rw [FunctionDraft.guardAt_eq hb ht, Block.guarded_eq]
        exact ⟨_, rfl⟩
    · rw [← h₁.functions] at hf ⊢
      simp only [onFunction, hd₄, hd₃, hd₂]
      exact modify_eq_set_of_getElem? hf
  · intro s hs
    simpa [onFunction, hd₄, hd₃, hd₂] using h₁.globals s hs
  · have := UInt32.le_iff_toNat_le.mp h₁.bound
    exact UInt32.le_iff_toNat_le.mpr (by simp only [onFunction]; omega)
  · have hle := UInt32.le_iff_toNat_le.mp h₁.bound
    simp only [GuardLabels.toList, onFunction, cons_append, nil_append, forall_mem_cons,
      hv, hi, hme, UInt32.le_iff_toNat_le, UInt32.lt_iff_toNat_lt]
    refine ⟨by omega, by omega, by omega, fun id hid => ?_⟩
    obtain ⟨m, hm, rfl⟩ := mem_map.mp hid
    obtain ⟨hlow, hhigh⟩ := hmoved m (by simpa using hm)
    rw [UInt32.le_iff_toNat_le] at hlow
    rw [UInt32.lt_iff_toNat_lt] at hhigh
    omega

end Draft

namespace Workspace

variable {w w' w'' : Workspace}

structure Widens (w w' : Workspace) : Prop where
  draft    : w.draft.Widens w'.draft
  requests : ∀ r ∈ w.requests, r ∈ w'.requests

theorem Widens.trans (h : w.Widens w') (h' : w'.Widens w'') : w.Widens w'' :=
  ⟨h.draft.trans h'.draft, fun r hr => h'.requests r (h.requests r hr)⟩

end Workspace

namespace Instrumenting

variable {w : Workspace}

theorem edit_widens {α : Type} {e : Editing α} {P : α → Draft → Prop}
    (h : Leads e w.draft (fun a d => w.draft.Widens d ∧ P a d) fun _ => True) :
    Leads (edit e) w (fun a w' => w.Widens w' ∧ P a w'.draft) fun _ => True :=
  edit_leads <| h.mono (fun _ _ ⟨hd, ha⟩ => ⟨⟨hd, fun _ hr => hr⟩, ha⟩) fun _ _ => trivial

theorem request_widens (name : String) : Leads (request name) w
    (fun id w' => w.Widens w' ∧ ⟨name, id⟩ ∈ w'.requests) fun _ => True := by
  refine .bind <| .get ?_
  split
  case h_1 r hr =>
    have hname : r.name = name := by simpa using find?_some hr
    refine .pure ⟨⟨.refl _, fun _ hr => hr⟩, ?_⟩
    exact hname ▸ mem_of_find?_eq_some hr
  case h_2 =>
    refine .bind <| (edit_widens (Draft.allocate_widens)).weaken fun id w₁ ⟨h₁, _⟩ => ?_
    refine .bind <| .modify <| .pure ⟨⟨h₁.draft, fun r hr => ?_⟩, ?_⟩
    · exact mem_append_left _ (h₁.requests r hr)
    · exact mem_append_right _ mem_cons_self

theorem callHelper_widens (name : String) (type : Id) (arguments : List Id) :
    Leads (callHelper name type arguments) w (fun r w' => w.Widens w'
      ∧ (w.draft.bound ≤ r.1 ∧ r.1 < w'.draft.bound)
      ∧ ∃ function, ⟨name, function⟩ ∈ w'.requests
        ∧ r.2 = Statement.new .functionCall (some type) (some r.1) (function :: arguments))
          fun _ => True := by
  refine .bind <| (request_widens name).weaken fun function w₁ ⟨h₁, hr⟩ => ?_
  refine .bind <| (edit_widens (Draft.allocateTyped_widens type)).weaken
    fun result w₂ ⟨h₂, hlow, hhigh⟩ => ?_
  exact .pure ⟨h₁.trans h₂, ⟨UInt32.le_trans h₁.draft.bound hlow, hhigh⟩, function,
    h₂.requests _ hr, rfl⟩

end Instrumenting

-- What visiting the statement `t` in block `b` does. If it passes over the statement, `missed` says
-- why.
inductive Visited (missed : Prop) (tests : Workspace → Edit → Prop) (w : Workspace) (p : Position)
    (b : Block) (t : Statement) : Option Position → Workspace → Prop
  | passed {w'} : w'.draft = w.draft → w'.requests = w.requests → missed →
      Visited missed tests w p b t none w'
  | edited {w'} {e : Edit} : e.Turns w.draft p b t w'.draft → (∀ r ∈ w.requests, r ∈ w'.requests) →
    (∀ id ∈ e.ids, w.draft.bound ≤ id ∧ id < w'.draft.bound) → e.Calls w'.requests → tests w' e →
    Visited missed tests w p b t (some (e.after p)) w'

theorem Visited.of_notes {missed : Prop} {tests : Workspace → Edit → Prop} {w w' : Workspace}
    {p : Position} {b : Block} {t : Statement} {next : Option Position} {notes : List Note}
    (h : Visited missed tests { w with notes := notes } p b t next w') :
    Visited missed tests w p b t next w' :=
  match h with
  | .passed hd hr hm => .passed hd hr hm
  | .edited ht hr hf hc htests => .edited ht hr hf hc htests

-- The check guards every statement it wants that is not in the header of a loop, by code as `tests`
-- says.
def Check.Treats (c : Check) (wants : Statement → Prop)
    (tests : Workspace → Statement → Edit → Prop) : Prop :=
  ∀ w p b t, w.draft.block? p = some b → b.body[p.index]? = some t →
    Leads (c.visit p) w (Visited (wants t → b.hasLoopMerge) (tests · t ·) w p b t) fun _ => True

theorem Edit.Turns.of_widens {e : Edit} {d d₁ d' : Draft} {p : Position} {b : Block} {t : Statement}
    (h : e.Turns d₁ p b t d') (hw : d.Widens d₁) : e.Turns d p b t d' where
  functions := hw.functions ▸ h.functions
  globals s hs := h.globals s (hw.globals s hs)
  bound := UInt32.le_trans hw.bound h.bound

namespace Instrumenting

variable {w w₁ : Workspace} {p : Position} {b : Block} {t : Statement} {test : List Statement}
  {condition : Id} {missed : Prop} {tests : Workspace → Edit → Prop}

theorem guard_visited (hw : w.Widens w₁) (hb : w.draft.block? p = some b)
    (ht : b.body[p.index]? = some t)
    (ho : ∃ op ∈ [Op.load, Op.store, Op.rayQueryInitializeKHR], t.op? = some op)
    (hl : b.hasLoopMerge = false) (hid : w.draft.bound ≤ condition ∧ condition < w₁.draft.bound)
    (hc : ∀ g, (Edit.mk test condition (some g)).Calls w₁.requests)

    (htests : ∀ w' g, (∀ s ∈ w₁.draft.globals, s ∈ w'.draft.globals) → w'.requests = w₁.requests →
      tests w' ⟨test, condition, some g⟩) :
    Leads (edit (Draft.guardStatement p test condition)) w₁
      (fun q w' => Visited missed tests w p b t (some q) w') fun _ => True := by
  obtain ⟨f, hf, hb⟩ := Option.bind_eq_some_iff.mp hb
  have hf : w₁.draft.functions[p.function]? = some f := hw.draft.functions ▸ hf
  refine edit_leads <| (Draft.guardStatement_turns test hf hb ht ho hl).mono
    (fun q d' ⟨g, hq, hturn, hids⟩ => ?_) fun _ _ => trivial
  subst hq
  refine .edited (hturn.of_widens hw.draft) hw.requests ?_ (hc g) (htests _ g hturn.globals rfl)
  simp only [Edit.ids, Option.elim_some, forall_mem_cons]
  refine ⟨⟨hid.left, UInt32.lt_of_lt_of_le hid.right hturn.bound⟩, fun id h => ?_⟩
  exact ⟨UInt32.le_trans hw.draft.bound (hids id h).left, (hids id h).right⟩

end Instrumenting

open Instrumenting

namespace BufferAddress

inductive Accesses (s : Statement) (pointer : Id) : Word → Prop
  | load (ho : s.op? = some .load) (hp : s.operands.head? = some pointer) : Accesses s pointer 0
  | store (ho : s.op? = some .store) (hp : s.operands.head? = some pointer) : Accesses s pointer 1

-- The type of the pointer is one of pointers to physical storage, which is class 5349.
structure Physical (m : Module) (pointer : Id) (type : Instruction) : Prop where
  typed   : m.typeOf? pointer = some type
  op      : type.op? = some .typePointer
  storage : type.word? 2 = some 5349

def Wants (m : Module) (s : Statement) : Prop :=
  ∃ pointer flag type, Accesses s pointer flag ∧ Physical m pointer type

def Tests (m : Module) (w : Workspace) (s : Statement) (test : List Statement) (condition : Id) :
    Prop :=
  ∃ pointer flag type target shape, Accesses s pointer flag ∧ Physical m pointer type
    ∧ type.word? 3 = some target ∧ m.shape target = .ok shape
    ∧ ∃ function offset size kind, ⟨"inst_buffer_device_address", function⟩ ∈ w.requests
      ∧ w.draft.IsWord offset (.ofNat (s.origin.getD 0))
      ∧ w.draft.IsWord size (.ofNat shape.bytes)
      ∧ w.draft.IsWord kind flag
      ∧ ∃ addressType boolType address, test =
        [.new .convertPtrToU (some addressType) (some address) [pointer],
          .new .functionCall (some boolType) (some condition) [function, offset, address,
          size, kind]]

theorem Accesses.op? {s : Statement} {pointer : Id} {flag : Word} (h : Accesses s pointer flag) :
    ∃ op ∈ [Op.load, Op.store, Op.rayQueryInitializeKHR], s.op? = some op := by
  cases h
  case load ho _ => exact ⟨.load, by simp, ho⟩
  case store ho _ => exact ⟨.store, by simp, ho⟩

theorem Accesses.of_same {s s' : Statement} {pointer : Id} {flag : Word}
    (h : Accesses s pointer flag) (ho : s'.op? = s.op?) (hs : s'.operands = s.operands) :
    Accesses s' pointer flag := by
  cases h
  case load h hp => exact .load (ho.trans h) (hs ▸ hp)
  case store h hp => exact .store (ho.trans h) (hs ▸ hp)

theorem op?_of_isStore? {s : Statement} {isStore : Bool} (h : s.op?.bind isStore? = some isStore) :
    s.op? = some (if isStore then .store else .load) := by
  obtain ⟨op, ho, hs⟩ := Option.bind_eq_some_iff.mp h
  unfold isStore? at hs
  split at hs <;> cases hs <;> exact ho

theorem accesses_iff {s : Statement} {pointer : Id} {flag : Word} : Accesses s pointer flag ↔
    ∃ isStore rest, s.op?.bind isStore? = some isStore ∧ s.operands = pointer :: rest
      ∧ flag = if isStore then 1 else 0 := by
  constructor
  case mp =>
    rintro (⟨ho, hp⟩ | ⟨ho, hp⟩)
    all_goals
      obtain ⟨rest, hp⟩ := head?_eq_some_iff.mp hp
      exact ⟨_, rest, by rw [ho]; rfl, hp, rfl⟩
  case mpr =>
    rintro ⟨isStore, rest, ho, hp, rfl⟩
    have ho := op?_of_isStore? ho
    have hp : s.operands.head? = some pointer := by rw [hp, head?_cons]
    cases isStore
    case false => exact .load ho hp
    case true => exact .store ho hp

theorem storageClass?_eq_ok_iff {type : Instruction} (ho : type.op? = some .typePointer) :
    type.storageClass? = .ok (some .physicalStorageBuffer) ↔ type.word? 2 = some 5349 := by
  simp only [Instruction.storageClass?, ho, Instruction.word]
  cases type.word? 2
  case none => simp [bind, Except.bind]
  case some w =>
    simp only [bind, Except.bind, pure, Except.pure, Except.ok.injEq, Option.some.injEq,
      StorageClass.ofNumber?_eq_some_iff]
    exact UInt32.toNat_inj (b := 5349)

theorem Physical.target? {m : Module} {pointer : Id} {type : Instruction}
    (h : Physical m pointer type) : target? m pointer = some <$> type.word 3 := by
  have hc := (storageClass?_eq_ok_iff h.op).mpr h.storage
  simp only [BufferAddress.target?, h.typed, Instruction.is, h.op, hc, bind, Except.bind]
  cases type.word 3 <;> rfl

theorem physical_of_target? {m : Module} {pointer target : Id}
    (h : target? m pointer = .ok (some target)) :
    ∃ type, Physical m pointer type ∧ type.word? 3 = some target := by
  unfold target? at h
  split at h
  case h_2 => cases h
  case h_1 type ht =>
    obtain ⟨c, hc, h⟩ := ok_of_bind h
    split at h
    case isFalse => cases h
    case isTrue his =>
      obtain ⟨x, hx, h⟩ := ok_of_bind h
      cases h
      simp only [Instruction.is, Bool.and_eq_true, beq_iff_eq] at his
      rw [his.right] at hc
      exact ⟨type, ⟨ht, his.left, (storageClass?_eq_ok_iff his.left).mp hc⟩,
        Instruction.word?_of_word hx⟩

theorem arguments_widens {d : Draft} (offset : Nat) (address : Id) (size : Nat) (isStore : Bool) :
    Leads (arguments offset address size isStore) d (fun r d' => d.Widens d'
      ∧ ∃ o s f, r = [o, address, s, f] ∧ d'.IsWord o (.ofNat offset) ∧ d'.IsWord s (.ofNat size)
        ∧ d'.IsWord f (if isStore then 1 else 0)) fun _ => True := by
  refine .bind <| (Draft.constantWord_widens _).weaken fun o d₁ ⟨h₁, ho⟩ => ?_
  refine .bind <| (Draft.constantWord_widens _).weaken fun s d₂ ⟨h₂, hs⟩ => ?_
  refine .bind <| (Draft.constantWord_widens _).weaken fun f d₃ ⟨h₃, hf⟩ => .pure ?_
  exact ⟨(h₁.trans h₂).trans h₃, o, s, f, rfl, ho.mono (h₂.trans h₃).globals, hs.mono h₃.globals,
    hf⟩

theorem Tests.mono {m : Module} {w w' : Workspace} {s : Statement} {test : List Statement}
    {condition : Id} (h : Tests m w s test condition) (hr : ∀ r ∈ w.requests, r ∈ w'.requests)
    (hg : ∀ s ∈ w.draft.globals, s ∈ w'.draft.globals) : Tests m w' s test condition :=
  have ⟨pointer, flag, type, target, shape, ha, hp, ht, hs, function, offset, size, kind,
    hf, h₁, h₂, h₃, he⟩ := h
  ⟨pointer, flag, type, target, shape, ha, hp, ht, hs, function, offset, size, kind, hr _ hf,
    h₁.mono hg, h₂.mono hg, h₃.mono hg, he⟩

theorem instrument_visited {m : Module} {w : Workspace} {p : Position} {b : Block} {t : Statement}
    {missed : Prop} {isStore : Bool} {pointer target : Id} {type : Instruction} {shape : Shape}
    (hb : w.draft.block? p = some b) (ht : b.body[p.index]? = some t) (hl : b.hasLoopMerge = false)
    (ha : Accesses t pointer (if isStore then 1 else 0)) (hp : Physical m pointer type)
    (hx : type.word? 3 = some target) (hs : m.shape target = .ok shape) :
    Leads (instrument p (t.origin.getD 0) pointer shape.bytes isStore) w (fun q w' =>
      Visited missed (fun w' e => e.guard.isSome ∧ Tests m w' t e.added e.result) w p b t
        (some q) w')
      fun _ => True := by
  refine .bind <| (edit_widens (Draft.typeInt_widens 64 false)).weaken
    fun addressType w₁ ⟨h₁, _⟩ => ?_
  refine .bind <| (edit_widens (P := fun _ _ => True) (Draft.typeBool_widens.weaken fun _ _ h =>
    ⟨h, trivial⟩)).weaken
    fun boolType w₂ ⟨h₂, _⟩ => ?_
  refine .bind <| (edit_widens (Draft.allocateTyped_widens addressType)).weaken
    fun address w₃ ⟨h₃, _⟩ => ?_
  refine .bind <| (edit_widens (arguments_widens _ address _ isStore)).weaken
    fun arguments w₄ ⟨h₄, offset, size, flag, harg, h₅, h₆, h₇⟩ => ?_
  subst harg
  refine .bind <| (callHelper_widens helper boolType _).weaken
    fun (condition, call) w₅ ⟨h₈, hid, function, hr, hcall⟩ => ?_
  dsimp only at hid hcall
  subst hcall
  have hw := ((h₁.trans h₂).trans h₃).trans h₄
  refine guard_visited (hw.trans h₈) hb ht ha.op? hl
    ⟨UInt32.le_trans hw.draft.bound hid.left, hid.right⟩ (fun g => ⟨?_⟩)
    fun w' g hg hreq => ⟨rfl, ?_⟩
  · refine ⟨[.new .convertPtrToU (some addressType) (some address) [pointer]], boolType, _, _,
      hr, rfl, ?_⟩
    simpa only [mem_singleton, forall_eq] using ⟨rfl, .convertPtrToU, by simp, Statement.op?_new ..⟩
  · refine ⟨pointer, _, type, target, shape, ha, hp, hx, hs, function, offset, size, flag,
      hreq ▸ hr, h₅.mono ?_, h₆.mono ?_, h₇.mono ?_, addressType, boolType, address, rfl⟩
    all_goals exact fun s hs => hg s (h₈.draft.globals s hs)

theorem visit_treats (m : Module) :
    (check m).Treats (Wants m) fun w s e => e.guard.isSome ∧ Tests m w s e.added e.result := by
  intro w p b t hb ht
  have hat : w.draft.statement? p = some t := by rw [Draft.statement?, hb, Option.bind_some, ht]
  refine .bind <| .get ?_
  dsimp only
  rw [hat]
  dsimp only
  -- Each way out before the last leaves a statement that was not wanted, or a loop header.
  split
  case h_2 hn =>
    refine .pure (.passed rfl rfl ?_)
    rintro ⟨_, _, _, ha, _⟩
    obtain ⟨isStore, _, ho, _⟩ := accesses_iff.mp ha
    exact absurd ho (hn isStore)
  case h_1 isStore ho =>
    split
    case h_2 hn =>
      refine .pure (.passed rfl rfl ?_)
      rintro ⟨pointer, _, _, ha, _⟩
      obtain ⟨_, rest, _, hp, _⟩ := accesses_iff.mp ha
      exact absurd hp (hn pointer rest)
    case h_1 pointer rest hp =>
      refine .bind <| ofChecked_leads (fun target htarget => ?_) trivial
      obtain _ | target := target
      · refine .pure (.passed rfl rfl ?_)
        rintro ⟨pointer', _, type, ha, hphysical⟩
        obtain ⟨_, _, _, hp', _⟩ := accesses_iff.mp ha
        cases hp.symm.trans hp'
        rw [hphysical.target?] at htarget
        cases hw : type.word 3 <;> simp [hw] at htarget
      · dsimp only
        obtain ⟨type, hphysical, hx⟩ := physical_of_target? htarget
        have ha : Accesses t pointer (if isStore then 1 else 0) :=
          accesses_iff.mpr ⟨isStore, rest, ho, hp, rfl⟩
        split
        case isFalse hn =>
          refine .bind <| report_leads <| .pure (.passed rfl rfl fun _ => ?_)
          simpa [Draft.canSplit, hb] using hn
        case isTrue hc =>
          have hl : b.hasLoopMerge = false := by simpa [Draft.canSplit, hb] using hc
          refine .bind <| ofChecked_leads (fun shape hs => ?_) trivial
          refine .bind <| report_leads <| .map ?_
          exact Leads.weaken (instrument_visited hb ht hl ha hphysical hx hs)
            fun _ _ h => Visited.of_notes h

end BufferAddress

namespace RayQuery

-- A statement that starts a query has as many operands as it needs, or the check fails.
def Wants (s : Statement) : Prop :=
  s.is .rayQueryInitializeKHR

def Tests (w : Workspace) (s : Statement) (test : List Statement) (condition : Id) : Prop :=
  Wants s ∧ ∃ query scene flags mask start least direction greatest,
    s.operands = [query, scene, flags, mask, start, least, direction, greatest]
    ∧ ∃ function offset boolType, ⟨"inst_ray_query", function⟩ ∈ w.requests
      ∧ w.draft.IsWord offset (.ofNat (s.origin.getD 0))
      ∧ test = [.new .functionCall (some boolType) (some condition)
        [function, offset, flags, start, least, direction, greatest]]

theorem Tests.mono {w w' : Workspace} {s : Statement} {test : List Statement} {condition : Id}
    (h : Tests w s test condition) (hr : ∀ r ∈ w.requests, r ∈ w'.requests)
    (hg : ∀ s ∈ w.draft.globals, s ∈ w'.draft.globals) : Tests w' s test condition :=
  have ⟨hw, query, scene, flags, mask, start, least, direction, greatest, ho, function, offset,
    type, hf, h₁, he⟩ := h
  ⟨hw, query, scene, flags, mask, start, least, direction, greatest, ho, function, offset,
    type, hr _ hf, h₁.mono hg, he⟩

theorem visit_treats :
    check.Treats Wants fun w s e => e.guard.isSome ∧ Tests w s e.added e.result := by
  intro w p b t hb ht
  have hat : w.draft.statement? p = some t := by rw [Draft.statement?, hb, Option.bind_some, ht]
  refine .bind <| .get ?_
  dsimp only
  rw [hat]
  dsimp only
  split
  case isFalse hn => exact .pure (.passed rfl rfl fun hw => absurd hw hn)
  case isTrue hw =>
    split
    case h_2 => exact .throw trivial
    case h_1 query scene flags mask start least direction greatest ho =>
      split
      case isFalse hn =>
        refine .bind <| report_leads <| .pure (.passed rfl rfl fun _ => ?_)
        simpa [Draft.canSplit, hb] using hn
      case isTrue hc =>
        have hl : b.hasLoopMerge = false := by simpa [Draft.canSplit, hb] using hc
        refine .map <| .bind <| (edit_widens (P := fun _ _ => True)
          (Draft.typeBool_widens.weaken fun _ _ h => ⟨h, trivial⟩)).weaken ?_
        rintro boolType w₁ ⟨h₁, _⟩
        refine .bind <| (edit_widens (Draft.constantWord_widens _)).weaken ?_
        rintro offset w₂ ⟨h₂, hoff⟩
        refine .bind <| (callHelper_widens helper boolType _).weaken ?_
        rintro ⟨condition, call⟩ w₃ ⟨h₃, hid, function, hr, hcall⟩
        dsimp only at hid hcall
        subst hcall
        have hw₂ := h₁.trans h₂
        refine guard_visited (hw₂.trans h₃) hb ht ⟨.rayQueryInitializeKHR, by simp,
          by simpa [Statement.is] using hw⟩ hl
          ⟨UInt32.le_trans hw₂.draft.bound hid.left, hid.right⟩ (fun g => ⟨?_⟩)
          fun w' g hg hreq => ⟨rfl, ?_⟩
        · exact ⟨[], boolType, _, _, hr, rfl, by simp⟩
        · exact ⟨hw, query, scene, flags, mask, start, least, direction, greatest, ho, function,
            offset, boolType, hreq ▸ hr, hoff.mono fun s hs => hg s (h₃.draft.globals s hs), rfl⟩

end RayQuery
end Shader
