import Shader.Proofs.Instrument.Frame
import Shader.Proofs.Instrument.Loop

namespace Shader

open List

theorem forall₂_forall_mem_and {α β γ : Type} {l : α → List γ} {R S : α → β → γ → Prop}
    {as : List α} {bs : List β} (hr : Forall₂ (fun a b => ∀ c ∈ l a, R a b c) as bs)
    (hs : Forall₂ (fun a b => ∀ c ∈ l a, S a b c) as bs) :
    Forall₂ (fun a b => ∀ c ∈ l a, R a b c ∧ S a b c) as bs := by
  induction hr
  case nil => exact .nil
  case cons h _ hi =>
    cases hs
    case cons h' hs => exact .cons (fun c hc => ⟨h c hc, h' c hc⟩) (hi hs)

structure Statement.Same (s s' : Statement) : Prop where
  opcode   : s'.opcode = s.opcode
  operands : s'.operands = s.operands
  origin   : s'.origin = s.origin

namespace Statement.Same

variable {s s' s'' : Statement}

theorem refl (s : Statement) : s.Same s :=
  ⟨rfl, rfl, rfl⟩

theorem symm (h : s.Same s') : s'.Same s :=
  ⟨h.opcode.symm, h.operands.symm, h.origin.symm⟩

theorem trans (h : s.Same s') (h' : s'.Same s'') : s.Same s'' :=
  ⟨h'.opcode.trans h.opcode, h'.operands.trans h.operands, h'.origin.trans h.origin⟩

theorem op? (h : s.Same s') : s'.op? = s.op? := by
  rw [Statement.op?, Statement.op?, h.opcode]

end Statement.Same

namespace FunctionDraft

def targets (cases : List Word → List Id) (f : FunctionDraft) : List Id :=
  (code f.blocks).flatMap (Statement.targets cases)

-- The statement `s` stands in a block of its own, and the only way there is the branch after
-- `test`.
structure Guards (cases : List Word → List Id) (f : FunctionDraft) (s : Statement)
    (labels : GuardLabels) (test : List Statement) (condition : Id) : Prop where
  alone  : ⟨labels.valid, [s, Block.toMerge labels]⟩ ∈ f.blocks
  once   : (f.targets cases).count labels.valid = 1
  tested : ∃ b ∈ f.blocks, ∃ start,
    b.body = start ++ (test ++ [Block.declareMerge labels, Block.branchOn condition labels])

def InLoopHeader (f : FunctionDraft) (s : Statement) : Prop :=
  ∃ b ∈ f.blocks, s ∈ b.body ∧ ∃ merge ∈ b.body, merge.op? = some .loopMerge

-- The statement `s₀` of the module is guarded by a test that `tests` allows, or it is in the header
-- of a loop.
def Covers (cases : List Word → List Id) (f : FunctionDraft) (tests : List Statement → Id → Prop)
    (s₀ : Statement) : Prop :=
  ∃ s, s₀.Same s ∧ (f.InLoopHeader s
    ∨ ∃ labels test condition, tests test condition ∧ f.Guards cases s labels test condition)

theorem inLoopHeader_iff {f : FunctionDraft} {s : Statement} :
    f.InLoopHeader s ↔ ∃ b ∈ f.blocks, b.hasLoopMerge ∧ s ∈ b.body := by
  simp [InLoopHeader, Block.hasLoopMerge, Statement.is, and_comm]

variable {cases : List Word → List Id} {f : FunctionDraft}
  {tests tests' : List Statement → Id → Prop} {s₀ s₁ : Statement}

theorem Covers.mono (h : f.Covers cases tests s₀)
    (hm : ∀ test condition, tests test condition → tests' test condition) :
    f.Covers cases tests' s₀ :=
  have ⟨s, hs, h⟩ := h
  ⟨s, hs, h.imp_right fun ⟨labels, test, condition, ht, hg⟩ =>
    ⟨labels, test, condition, hm _ _ ht, hg⟩⟩

theorem Covers.of_same (h : f.Covers cases tests s₀) (hs : s₁.Same s₀) : f.Covers cases tests s₁ :=
  have ⟨s, hs', h⟩ := h
  ⟨s, hs.trans hs', h⟩

end FunctionDraft

namespace Edit

variable (cases : List Word → List Id) {e : Edit} {requests : List HelperRequest}

def branches (e : Edit) : List Id :=
  e.guard.elim [] fun (labels, _) => [labels.valid, labels.invalid, labels.merge, labels.merge]

theorem branches_sublist (e : Edit) : ∀ l ∈ e.branches, l ∈ e.ids := by
  unfold branches ids
  cases e.guard
  case none => simp
  case some g => simp [GuardLabels.toList]

theorem same_target (hg : e.guard.isSome) (t : Statement) : t.Same (e.target t) := by
  obtain ⟨⟨labels, merged⟩, hg⟩ := Option.isSome_iff_exists.mp hg
  cases merged <;> simp only [target, hg] <;> exact ⟨rfl, rfl, rfl⟩

theorem op?_added (h : e.Calls requests) :
    ∀ s ∈ e.added, ∃ op ∈ [Op.convertPtrToU, Op.bitcast, Op.functionCall], s.op? = some op := by
  obtain ⟨converting, type, arguments, r, _, ha, hc⟩ := h.added
  simp only [ha, forall_mem_append, forall_mem_singleton]
  refine ⟨fun s hs => ?_, .functionCall, by simp, Statement.op?_new ..⟩
  obtain ⟨_, op, hop, ho⟩ := hc s hs
  exact ⟨op, mem_append_left [Op.functionCall] hop, ho⟩

theorem not_phi_added (h : e.Calls requests) : ∀ s ∈ e.added, s.is .phi = false := by
  intro s hs
  obtain ⟨op, hop, ho⟩ := op?_added h s hs
  simp only [mem_cons, not_mem_nil, or_false] at hop
  obtain rfl | rfl | rfl := hop <;> simp [Statement.is, ho]

theorem targets_added (h : e.Calls requests) : ∀ s ∈ e.added, s.targets cases = [] := by
  intro s hs
  obtain ⟨op, hop, ho⟩ := op?_added h s hs
  simp only [mem_cons, not_mem_nil, or_false] at hop
  obtain rfl | rfl | rfl := hop <;> simp [Statement.targets, ho]

theorem targets_new (h : e.Calls requests) :
    e.head.flatMap (Statement.targets cases) ++ e.tail.flatMap (Statement.targets cases)
      = e.branches := by
  have hadded := flatMap_eq_nil_iff.mpr (targets_added cases h)
  rw [head, tail, branches, flatMap_append, hadded]
  cases e.guard
  case none => rfl
  case some g =>
    obtain ⟨labels, merged⟩ := g
    cases merged <;>
      simp [Block.declareMerge, Block.branchOn, Block.toMerge, Block.mergePhi, Statement.targets]
        <;> rfl

end Edit

namespace Edit.Applies

variable {e : Edit} {f f' : FunctionDraft} {block index : Nat} {b : Block} {t : Statement}
  {requests : List HelperRequest}

theorem targets_perm (h : e.Applies f block index b t f') (hc : e.Calls requests)
    (cases : List Word → List Id) :
    f'.targets cases ~ f.targets cases ++ e.branches := by
  obtain ⟨hf, hf'⟩ := h.code_split
  have heq {ss ss' : List Statement} (hr : Forall₂ (Statement.Reparented b.label e.parent) ss ss') :
      ss'.flatMap (Statement.targets cases) = ss.flatMap (Statement.targets cases) := by
    induction hr
    case nil => rfl
    case cons hs _ hi => rw [flatMap_cons, flatMap_cons, hs.targets, hi]
  have ⟨_, _, _, htargets⟩ := h.target_plain
  obtain ⟨ht, ht'⟩ := htargets cases
  rw [FunctionDraft.targets, FunctionDraft.targets, heq hf', hf, ← targets_new cases hc]
  refine perm_iff_count.mpr fun l => ?_
  simp only [flatMap_append, flatMap_cons, count_append, ht, ht', count_nil]
  omega

end Edit.Applies

namespace FunctionDraft

variable {cases : List Word → List Id} {e : Edit} {f f' : FunctionDraft} {block index : Nat}
  {b : Block} {s s₀ t : Statement} {requests : List HelperRequest} {labels : GuardLabels}
  {test : List Statement} {condition : Id} {tests : List Statement → Id → Prop}

theorem Guards.edit (h : f.Guards cases s labels test condition)
    (ha : e.Applies f block index b t f') (hc : e.Calls requests) (ht : t.origin.isSome)
    (hne : s ≠ t) (hphi : s.is .phi = false)
    (htest : ∀ u ∈ test, u.origin = none ∧ u.is .phi = false) (hfresh : labels.valid ∉ e.ids) :
    f'.Guards cases s labels test condition where
  alone := by
    refine ha.mem_blocks h.alone ?_ ?_
    · simp only [mem_cons, not_mem_nil, or_false, not_or]
      exact ⟨hne.symm, fun heq => by simp [heq, Block.toMerge, Statement.new] at ht⟩
    · simp only [forall_mem_cons]
      exact ⟨hphi, by simp [Block.toMerge, Statement.is], by simp⟩
  once := by
    have hn : e.branches.count labels.valid = 0 :=
      count_eq_zero.mpr fun hmem => hfresh (e.branches_sublist _ hmem)
    rw [(ha.targets_perm hc cases).count_eq, count_append, hn, h.once]
  tested := by
    obtain ⟨c, hcb, start, hbody⟩ := h.tested
    refine ha.exists_suffix ht hcb hbody ?_
    simp only [forall_mem_append, forall_mem_cons]
    refine ⟨htest, ⟨rfl, ?_⟩, ⟨rfl, ?_⟩, by simp⟩
    · simp [Block.declareMerge, Statement.is]
    · simp [Block.branchOn, Statement.is]

theorem Guards.valid_mem (h : f.Guards cases s labels test condition) :
    labels.valid ∈ f.targets cases :=
  count_pos_iff.mp (by rw [h.once]; exact Nat.one_pos)

theorem Covers.edit {bound : Id} (h : f.Covers cases tests s₀) (ha : e.Applies f block index b t f')
    (hc : e.Calls requests) (ht : t.origin.isSome) (hne : ¬s₀.Same t) (hphi : s₀.is .phi = false)
    (htest : ∀ test condition, tests test condition → ∀ u ∈ test, u.origin = none
      ∧ u.is .phi = false)
    (hbound : ∀ l ∈ f.targets cases, l < bound) (hids : ∀ id ∈ e.ids, bound ≤ id) :
    f'.Covers cases tests s₀ := by
  obtain ⟨s, hs, h⟩ := h
  have hst : s ≠ t := fun heq => hne (heq ▸ hs)
  have hphi : s.is .phi = false := by rwa [Statement.is, hs.op?, ← Statement.is]
  refine ⟨s, hs, h.imp ?_ ?_⟩
  · intro hl
    obtain ⟨c, hcb, hl, hmem⟩ := inLoopHeader_iff.mp hl
    exact inLoopHeader_iff.mpr (ha.exists_header hcb hl hmem hst hphi)
  · rintro ⟨labels, test, condition, htests, hg⟩
    refine ⟨labels, test, condition, htests, hg.edit ha hc ht hst hphi (htest _ _ htests)
      fun hmem => ?_⟩
    exact absurd (hbound _ hg.valid_mem) (UInt32.not_lt.mpr (hids _ hmem))

theorem covers_target {bound : Id} (ha : e.Applies f block index b t f') (hc : e.Calls requests)
    (hg : e.guard.isSome) (htests : tests e.added e.result)
    (hbound : ∀ l ∈ f.targets cases, l < bound) (hids : ∀ id ∈ e.ids, bound ≤ id) :
    f'.Covers cases tests t := by
  have hsame := Edit.same_target hg t
  obtain ⟨⟨labels, merged⟩, hg⟩ := Option.isSome_iff_exists.mp hg
  obtain ⟨_, _, hvi, hvm, _⟩ := ha.guard labels merged hg
  refine ⟨e.target t, hsame, .inr ⟨labels, e.added, e.result, htests, ha.permitted_mem hg, ?_,
    ha.testing_mem hg (Edit.not_phi_added hc)⟩⟩
  have hnew : labels.valid ∈ e.ids := by simp [Edit.ids, hg, GuardLabels.toList]
  have hn : (f.targets cases).count labels.valid = 0 :=
    count_eq_zero.mpr fun hmem => absurd (hbound _ hmem) (UInt32.not_lt.mpr (hids _ hnew))
  rw [(ha.targets_perm hc cases).count_eq, count_append, hn]
  simp [Edit.branches, hg, hvi.symm, hvm.symm]

end FunctionDraft
structure Check.Guarding (c : Check) (wants : Statement → Prop)
    (tests : Workspace → Statement → List Statement → Id → Prop) : Prop where
  treats  : c.Treats wants fun w s e => e.guard.isSome ∧ tests w s e.added e.result
  subject : ∀ s, wants s → ∃ op ∈ [Op.load, Op.store, Op.rayQueryInitializeKHR], s.op? = some op
  wanted  : ∀ s s', s.Same s' → wants s → wants s'
  same    : ∀ w s s' test condition, s.Same s' → tests w s test condition →
    tests w s' test condition
  mono    : ∀ w w' s test condition, (∀ r ∈ w.requests, r ∈ w'.requests) →
    (∀ s ∈ w.draft.globals, s ∈ w'.draft.globals) → tests w s test condition →
    tests w' s test condition
  fresh   : ∀ w s test condition, tests w s test condition → ∀ u ∈ test, u.origin = none
    ∧ u.is .phi = false

theorem Check.Guarding.not_phi {c : Check} {wants : Statement → Prop}
    {tests : Workspace → Statement → List Statement → Id → Prop} (hg : c.Guarding wants tests)
    {s : Statement} (hw : wants s) : s.is .phi = false := by
  obtain ⟨op, hop, ho⟩ := hg.subject s hw
  simp only [mem_cons, not_mem_nil, or_false] at hop
  obtain rfl | rfl | rfl := hop <;> simp [Statement.is, ho]

theorem BufferAddress.guarding (m : Module) : (check m).Guarding (Wants m) (Tests m) where
  treats := visit_treats m
  subject := fun s ⟨_, _, _, ha, _⟩ => ha.op?
  wanted := by
    rintro s s' hs ⟨pointer, flag, type, ha, hp⟩
    exact ⟨pointer, flag, type, ha.of_same hs.op? hs.operands, hp⟩
  same := by
    rintro w s s' test condition hs ⟨pointer, flag, type, target, shape, ha, h⟩
    refine ⟨pointer, flag, type, target, shape, ha.of_same hs.op? hs.operands, ?_⟩
    rwa [hs.origin]
  mono := fun _ _ _ _ _ hr hg h => h.mono hr hg
  fresh := by
    rintro w s test condition ⟨_, _, _, _, _, _, _, _, _, _, _, _, _, _, _, _, _, _, _, _, rfl⟩
    simp only [forall_mem_cons]
    exact ⟨⟨rfl, by simp [Statement.is]⟩, ⟨rfl, by simp [Statement.is]⟩, by simp⟩

theorem RayQuery.guarding : check.Guarding Wants Tests where
  treats := visit_treats
  subject s h := ⟨.rayQueryInitializeKHR, by simp, by simpa [Wants, Statement.is] using h⟩
  wanted s s' hs h := by
    rwa [Wants, Statement.is, hs.op?]
  same := by
    rintro w s s' test condition hs ⟨hw, q, a, b, c, d, e, f, g, ho, h⟩
    refine ⟨?_, q, a, b, c, d, e, f, g, hs.operands.trans ho, ?_⟩
    · rwa [Wants, Statement.is, hs.op?]
    · rwa [hs.origin]
  mono := fun _ _ _ _ _ hr hg h => h.mono hr hg
  fresh := by
    rintro w s test condition ⟨_, _, _, _, _, _, _, _, _, _, _, _, _, _, _, rfl⟩
    simp only [forall_mem_singleton]
    exact ⟨rfl, by simp [Statement.is]⟩

section

variable (cases : List Word → List Id) {w₀ w w' : Workspace} {missed : Prop}
  {edits : Workspace → Edit → Prop} {p : Position} {b : Block} {t : Statement}
  {next : Option Position}

structure Workspace.Ready (w₀ w : Workspace) : Prop where
  original : ∀ f ∈ w₀.draft.functions, f.Original
  adapts   : ∃ count, w₀.Adapts w count
  below    : ∀ f ∈ w.draft.functions, ∀ l ∈ f.targets cases, l < w.draft.bound

variable {cases}

theorem Workspace.Ready.visited (h : w₀.Ready cases w) (ht : t.origin.isSome)
    (hv : Visited missed edits w p b t next w') : w₀.Ready cases w' := by
  obtain ⟨count, ha⟩ := h.adapts
  refine ⟨h.original, ⟨_, ha.visited h.original ht hv⟩, ?_⟩
  cases hv
  case passed _ hd hr => exact hd ▸ h.below
  case edited e hturn hreq hids hcalls _ =>
    obtain ⟨f, f', hf, happ, hset⟩ := hturn.functions
    intro g hg l hl
    rw [hset] at hg
    obtain hg | rfl := mem_or_eq_of_mem_set hg
    · exact UInt32.lt_of_lt_of_le (h.below g hg l hl) hturn.bound
    · obtain hl | hl := mem_append.mp ((happ.targets_perm hcalls cases).mem_iff.mp hl)
      · exact UInt32.lt_of_lt_of_le (h.below f (mem_of_getElem? hf) l hl) hturn.bound
      · exact (hids l (e.branches_sublist l hl)).right

theorem Workspace.Ready.nodup_originals (h : w₀.Ready cases w) {f : FunctionDraft}
    (hf : f ∈ w.draft.functions) :
    (f.originals.map Statement.origin).Nodup := by
  obtain ⟨_, ha⟩ := h.adapts
  obtain ⟨f₀, hf₀, hadapts⟩ := exists_of_mem_forall₂ ha.functions hf
  exact hadapts.nodup_originals (h.original f₀ hf₀)

end

def Covered (cases : List Word → List Id) (wants : Statement → Prop)
    (tests : Workspace → Statement → List Statement → Id → Prop) (w : Workspace) (f : FunctionDraft)
    (ss : List Statement) : Prop :=
  ∀ s ∈ ss, s.origin.isSome → wants s → f.Covers cases (tests w s) s

structure Reaches (cases : List Word → List Id) (wants : Statement → Prop)
    (tests : Workspace → Statement → List Statement → Id → Prop) (w₀ w : Workspace) (p : Position) :
    Prop where
  ready  : w₀.Ready cases w
  before : ∀ i < p.function, ∀ f, w.draft.functions[i]? = some f →
    Covered cases wants tests w f (code f.blocks)
  here   : ∀ f, w.draft.functions[p.function]? = some f →
    Covered cases wants tests w f (behind f.blocks p.block p.index)

namespace Reaches

variable {cases : List Word → List Id} {wants : Statement → Prop}
  {tests : Workspace → Statement → List Statement → Id → Prop} {w₀ w w' : Workspace} {p : Position}
  {b : Block} {t : Statement} {f : FunctionDraft} {c : Check}

theorem start (hr : w₀.Ready cases w) {function : Nat}

    (h : ∀ i < function, ∀ f, w.draft.functions[i]? = some f →
      Covered cases wants tests w f (code f.blocks)) :
    Reaches cases wants tests w₀ w ⟨function, 0, 0⟩ := by
  refine ⟨hr, h, fun f _ => ?_⟩
  cases hb : f.blocks[0]? <;> simp [Covered, behind, code, hb]

theorem leave (h : Reaches cases wants tests w₀ w p) (hb : w.draft.block? p = some b)
    (hn : b.body[p.index]? = none) :
    Reaches cases wants tests w₀ w ⟨p.function, p.block + 1, 0⟩ := by
  obtain ⟨f, hf, hb⟩ := Option.bind_eq_some_iff.mp hb
  refine ⟨h.ready, h.before, fun g hg => ?_⟩
  cases hf.symm.trans hg
  rw [behind_block hb (getElem?_eq_none_iff.mp hn)]
  exact h.here f hf

theorem pass (h : Reaches cases wants tests w₀ w p) (hf : w.draft.functions[p.function]? = some f)
    (hb : f.blocks[p.block]? = some b) (ht : b.body[p.index]? = some t)
    (hcovers : t.origin.isSome → wants t → f.Covers cases (tests w t) t) :
    Reaches cases wants tests w₀ w { p with index := p.index + 1 } := by
  refine ⟨h.ready, h.before, fun g hg => ?_⟩
  cases hf.symm.trans hg
  intro s hs
  rw [behind_succ hb ht, mem_append, mem_singleton] at hs
  obtain hs | rfl := hs
  · exact h.here f hf s hs
  · exact hcovers

theorem finish (h : Reaches cases wants tests w₀ w p) (hn : w.draft.block? p = none) :
    Reaches cases wants tests w₀ w ⟨p.function + 1, 0, 0⟩ := by
  refine start h.ready fun i hi f hf => ?_
  obtain hi | rfl := Nat.lt_succ_iff_lt_or_eq.mp hi
  · exact h.before i hi f hf
  · have hlen : f.blocks.length ≤ p.block := by
      simpa [Draft.block?, hf] using hn
    rw [code_eq f.blocks p.block p.index, ahead_of_length_le hlen, append_nil]
    exact h.here f hf

theorem mono_covered (hg : c.Guarding wants tests) (hr : ∀ r ∈ w.requests, r ∈ w'.requests)
    (hglobals : ∀ s ∈ w.draft.globals, s ∈ w'.draft.globals) {ss : List Statement}
    (h : Covered cases wants tests w f ss) : Covered cases wants tests w' f ss :=
  fun s hs ho hw => (h s hs ho hw).mono fun _ _ ht => hg.mono _ _ _ _ _ hr hglobals ht

theorem covered_edit {e : Edit} {f' : FunctionDraft} {block index : Nat}
    (hg : c.Guarding wants tests) (hn : (f.originals.map Statement.origin).Nodup) {bound : Id}
    (hbound : ∀ l ∈ f.targets cases, l < bound) (ha : e.Applies f block index b t f')
    (ht : t.origin.isSome) (hids : ∀ id ∈ e.ids, bound ≤ id) (hcalls : e.Calls w.requests)
    (htests : e.guard.isSome ∧ tests w t e.added e.result)
    (h : Covered cases wants tests w f (behind f.blocks block index)) :
    Covered cases wants tests w f'
      (behind f'.blocks (block + (e.next index).1) (e.next index).2) := by
  intro s' hs' ho hw
  obtain ⟨s, hs, hr⟩ := exists_of_mem_forall₂ ha.behind_eq hs'
  obtain rfl := hr.eq (hr.is .phi ▸ hg.not_phi hw)
  simp only [mem_append, mem_cons] at hs
  obtain (hs | hs) | rfl | hs := hs
  · refine (h s' hs ho hw).edit ha hcalls ht (fun hsame => ?_) (hg.not_phi hw) (hg.fresh w s')
      hbound hids
    -- The two would have the same origin.
    rw [FunctionDraft.originals, ha.code_split.left, filter_append,
      filter_cons_of_pos (p := fun s : Statement => s.origin.isSome) ht, map_append, map_cons,
      nodup_append] at hn
    exact hn.right.right _ (mem_map_of_mem (mem_filter.mpr ⟨hs, ho⟩)) _ mem_cons_self
      hsame.origin.symm
  · simp [Edit.origin_head hcalls s' hs] at ho
  · have hsame := Edit.same_target htests.left t
    refine .of_same (.mono ?_ fun _ _ => hg.same w _ _ _ _ hsame) hsame.symm
    exact FunctionDraft.covers_target ha hcalls htests.left htests.right hbound hids
  · simp [e.origin_tail s' hs] at ho

theorem edited {e : Edit} (hg : c.Guarding wants tests) (h : Reaches cases wants tests w₀ w p)
    (hready : w₀.Ready cases w') (ht : t.origin.isSome) (hturn : e.Turns w.draft p b t w'.draft)
    (hreq : ∀ r ∈ w.requests, r ∈ w'.requests) (hids : ∀ id ∈ e.ids, w.draft.bound ≤ id)
    (hcalls : e.Calls w'.requests) (htests : e.guard.isSome ∧ tests w' t e.added e.result) :
    Reaches cases wants tests w₀ w' (e.after p) := by
  obtain ⟨f, f', hf, ha, hset⟩ := hturn.functions
  have hlt := (List.getElem?_eq_some_iff.mp hf).1
  have hf' : w'.draft.functions[p.function]? = some f' := by rw [hset, getElem?_set_self hlt]
  have hmem := mem_of_getElem? hf
  refine ⟨hready, fun i hi g hgi => ?_, fun g hgf => ?_⟩
  · have hi : i < p.function := hi
    rw [hset, getElem?_set_ne (Nat.ne_of_gt hi)] at hgi
    exact mono_covered hg hreq hturn.globals (h.before i hi g hgi)
  · cases hf'.symm.trans hgf
    exact covered_edit hg (h.ready.nodup_originals hmem) (h.ready.below f hmem) ha ht hids
      hcalls htests
      (mono_covered hg hreq hturn.globals (h.here f hf))

theorem of_eq (h : Reaches cases wants tests w₀ w p) (hd : w'.draft = w.draft)
    (hr : w'.requests = w.requests) (hg : c.Guarding wants tests) :
    Reaches cases wants tests w₀ w' p := by
  have hreq : ∀ r ∈ w.requests, r ∈ w'.requests := fun _ h => hr ▸ h
  have hglobals : ∀ s ∈ w.draft.globals, s ∈ w'.draft.globals := fun _ h => hd ▸ h
  obtain ⟨count, ha⟩ := h.ready.adapts
  refine ⟨⟨h.ready.original, ⟨count, ha.of_eq hd hr⟩, hd ▸ h.ready.below⟩, fun i hi f hf => ?_,
    fun f hf => ?_⟩
  · exact mono_covered hg hreq hglobals (h.before i hi f (hd ▸ hf))
  · exact mono_covered hg hreq hglobals (h.here f (hd ▸ hf))

theorem moved {g g' : Check.Progress} {visits : List Check.Visit} (hg : c.Guarding wants tests)
    (h : Reaches cases wants tests w₀ g.workspace g.position) (hm : c.Moved none g visits g') :
    Reaches cases wants tests w₀ g'.workspace g'.position := by
  cases hm
  case function hb => exact h.finish hb
  case block hb hn => exact h.leave hb hn
  case added hb ht ho =>
    obtain ⟨f, hf, hb⟩ := Option.bind_eq_some_iff.mp hb
    exact h.pass hf hb ht fun hsome => by simp [ho] at hsome
  case visited w p _ b t next w' hb ht ho _ hvisit =>
    have hv := (hg.treats w p b t hb ht).ok hvisit
    have hready := h.ready.visited ho hv
    cases hv
    case passed hm hd hr =>
      obtain ⟨f, hf, hfb⟩ := Option.bind_eq_some_iff.mp hb
      have h' : Reaches cases wants tests w₀ w' p := h.of_eq hd hr hg
      rw [← hd] at hf
      refine h'.pass hf hfb ht fun _ hw => ?_
      have hl : f.InLoopHeader t :=
        FunctionDraft.inLoopHeader_iff.mpr ⟨b, mem_of_getElem? hfb, hm hw, mem_of_getElem? ht⟩
      exact ⟨t, .refl t, .inl hl⟩
    case edited e hturn hreq hids hcalls htests =>
      exact edited hg h hready ho hturn hreq (fun id hid => (hids id hid).left) hcalls htests

end Reaches

def Workspace.Covers (cases : List Word → List Id) (wants : Statement → Prop)
    (tests : Workspace → Statement → List Statement → Id → Prop) (w₀ w : Workspace) : Prop :=
  Forall₂ (fun f₀ f => ∀ s₀ ∈ code f₀.blocks, wants s₀ → f.Covers cases (tests w s₀) s₀)
    w₀.draft.functions
    w.draft.functions

section

variable {cases : List Word → List Id} {wants : Statement → Prop}
  {tests : Workspace → Statement → List Statement → Id → Prop} {w₀ w w' : Workspace} {c : Check}

theorem Reaches.covers (hg : c.Guarding wants tests) {p : Position}
    (h : Reaches cases wants tests w₀ w p) (hp : w₀.draft.functions.length ≤ p.function) :
    w₀.Covers cases wants tests w := by
  obtain ⟨_, ha⟩ := h.ready.adapts
  have hcovered : ∀ f ∈ w.draft.functions, Covered cases wants tests w f (code f.blocks) := by
    intro f hf
    obtain ⟨i, hi, rfl⟩ := getElem_of_mem hf
    exact h.before i (Nat.lt_of_lt_of_le (ha.functions.length_eq ▸ hi) hp)
      _ (getElem?_eq_getElem hi)
  have hall := (forall₂_and_left _ _).mpr ⟨hcovered, ha.functions.flip⟩
  refine hall.flip.imp fun f₀ f ⟨hf, hadapts⟩ s₀ hs₀ hw => ?_
  obtain ⟨s, hs, hss⟩ := exists_of_mem_forall₂ hadapts.code.flip hs₀
  have hsame : s₀.Same s := ⟨hss.opcode, hss.operands_eq (hg.subject s₀ hw), hss.origin⟩
  obtain ⟨hs, ho⟩ := mem_filter.mp hs
  refine .of_same (.mono (hf s hs ho (hg.wanted _ _ hsame hw)) fun _ _ => ?_) hsame
  exact hg.same w _ _ _ _ hsame.symm

theorem Check.Guarding.run (hg : c.Guarding wants tests) (h : w₀.Ready cases w) :
    Leads (c.run none) w (fun _ w' => w₀.Ready cases w' ∧ w₀.Covers cases wants tests w')
      fun _ => True := by
  obtain ⟨_, ha⟩ := h.adapts
  have hstart : Reaches cases wants tests w₀ w ⟨0, 0, 0⟩ := .start h (by simp)
  refine (run_leads_finishes hg.treats.advances none w).mono ?_ fun _ _ => trivial
  rintro n w' ⟨visits, p, hgoes, hends⟩
  have hreaches : Reaches cases wants tests w₀ w' p := hgoes.invariant
    (fun g => Reaches cases wants tests w₀ g.workspace g.position) (fun hm h => h.moved hg hm)
    hstart
  exact ⟨hreaches.ready, hreaches.covers hg (ha.functions.length_eq ▸ le_of_ended hends)⟩

theorem Workspace.Ready.of_eq (h : w₀.Ready cases w) (hd : w'.draft = w.draft)
    (hr : w'.requests = w.requests) :
    w₀.Ready cases w' :=
  have ⟨count, ha⟩ := h.adapts
  ⟨h.original, ⟨count, ha.of_eq hd hr⟩, hd ▸ h.below⟩

theorem Workspace.Covers.mono (hg : c.Guarding wants tests) (h : w₀.Covers cases wants tests w)
    (hr : ∀ r ∈ w.requests, r ∈ w'.requests)
    (hglobals : ∀ s ∈ w.draft.globals, s ∈ w'.draft.globals) :
    Forall₂ (fun f₀ f => ∀ s₀ ∈ code f₀.blocks, wants s₀ → f.Covers cases (tests w' s₀) s₀)
      w₀.draft.functions
      w.draft.functions :=
  h.imp fun _ _ hf s₀ hs hw => (hf s₀ hs hw).mono fun _ _ => hg.mono _ _ _ _ _ hr hglobals

theorem Workspace.Covers.of_eq (hg : c.Guarding wants tests) (h : w₀.Covers cases wants tests w)
    (hd : w'.draft = w.draft) (hr : w'.requests = w.requests) : w₀.Covers cases wants tests w' := by
  have hm := Workspace.Covers.mono hg h (fun _ hmem => hr ▸ hmem) fun _ hmem => hd ▸ hmem
  rwa [← hd] at hm

theorem Workspace.Covers.visited {missed : Prop} {edits : Workspace → Edit → Prop} {p : Position}
    {b : Block} {t : Statement} {next : Option Position} (hg : c.Guarding wants tests)
    (h : w₀.Covers cases wants tests w) (hready : w₀.Ready cases w) (ht : t.origin.isSome)
    (hv : Visited missed edits w p b t next w')
    (hapart : ∀ s₀ e, wants s₀ → edits w' e → ¬s₀.Same t) : w₀.Covers cases wants tests w' := by
  cases hv
  case passed _ hd hr => exact h.of_eq hg hd hr
  case edited e hturn hreq hids hcalls hedit =>
    obtain ⟨f, f', hf, ha, hset⟩ := hturn.functions
    rw [Covers, hset]
    refine forall₂_set (h.mono hg hreq hturn.globals) hf fun f₀ _ hcovers s₀ hs hw => ?_
    refine (hcovers s₀ hs hw).edit ha hcalls ht (hapart s₀ e hw hedit) (hg.not_phi hw)
      (hg.fresh w' s₀)
      (hready.below f (mem_of_getElem? hf)) fun id hid => (hids id hid).left

end

namespace Pipeline

variable {cases : List Word → List Id} {wants : Statement → Prop}
  {tests : Workspace → Statement → List Statement → Id → Prop} {w₀ w : Workspace} {c : Check}
  {s : Settings}

theorem foldlM_ready {cs : List Check} (hcs : ∀ c ∈ cs, ∃ wants tests, c.Treats wants tests)
    (total : Nat) (h : w₀.Ready cases w) :
    Leads (cs.foldlM (fun total c => return total + (← runCheck (limit? s) c)) total) w
      (fun _ => w₀.Ready cases) fun _ => True := by
  refine foldlM_keeps (fun _ _ h => h.of_eq rfl rfl) (fun c hc w h => ?_) total h
  obtain ⟨_, _, ht⟩ := hcs c hc
  exact ht.run_keeps (fun _ => w₀.Ready cases) (fun _ _ _ _ _ _ _ h ho hv => h.visited ho hv)
    (limit? s) h

theorem foldlM_covers {before after : List Check} (hg : c.Guarding wants tests)
    (hs : limit? s = none) (hbefore : ∀ c ∈ before, ∃ wants tests, c.Treats wants tests)
    (hafter : ∀ c ∈ after, ∃ wants' tests', c.Treats wants' tests' ∧ ∀ w t e s₀, tests' w t e →
      wants s₀ → ¬s₀.Same t)
    (h : w₀.Ready cases w) :
    Leads ((before ++ c :: after).foldlM (fun total c => return total + (← runCheck (limit? s) c))
      0) w
      (fun _ w' => w₀.Ready cases w' ∧ w₀.Covers cases wants tests w') fun _ => True := by
  have hnotes (w : Workspace) (notes : List Note)
      (h : w₀.Ready cases w ∧ w₀.Covers cases wants tests w) :
      w₀.Ready cases { w with notes := notes }
        ∧ w₀.Covers cases wants tests { w with notes := notes } :=
    ⟨h.left.of_eq rfl rfl, h.right.of_eq hg rfl rfl⟩
  rw [foldlM_append]
  refine .bind <| (foldlM_ready hbefore 0 h).weaken fun total w h => ?_
  rw [foldlM_cons]
  refine .bind <| .bind <| .bind <| (hs ▸ hg.run h).weaken fun count w' h => ?_
  refine .bind <| Instrumenting.report_leads <| .pure <| .pure ?_
  refine foldlM_keeps hnotes (fun c hc w h => ?_) _ (hnotes w' _ h)
  obtain ⟨_, _, ht, hapart⟩ := hafter c hc
  refine ht.run_keeps (fun _ w => w₀.Ready cases w ∧ w₀.Covers cases wants tests w)
    (fun _ _ _ _ _ _ _ h ho hv => ⟨h.left.visited ho hv, ?_⟩) (limit? s) h
  exact h.right.visited hg h.left ho hv fun s₀ e hw he => hapart _ _ e s₀ he hw

theorem ready_of_new {words : List Word} {p : Pipeline} (h : new words = .ok p)
    (hb : ∀ f ∈ p.draft.functions, ∀ l ∈ f.targets cases, l < p.draft.bound) :
    p.toWorkspace.Ready cases p.toWorkspace :=
  ⟨original_of_new h, ⟨0, .refl (original_of_new h)⟩, hb⟩

theorem covers_accesses (m : Module) (hl : s.limit = 0) (hs : s.bufferAddress)
    (h : w₀.Ready cases w) :
    Leads (runChecks m s) w (fun _ w' => w₀.Ready cases w'
      ∧ w₀.Covers cases (BufferAddress.Wants m) (BufferAddress.Tests m) w') fun _ => True := by
  have hchecks := checks_treat m s
  rw [runChecks]
  rw [checks, hs, if_pos rfl, append_assoc, singleton_append] at hchecks ⊢
  refine foldlM_covers (BufferAddress.guarding m) (if_pos hl)
    (fun c hc => hchecks c (mem_append_left _ hc))
    (fun c hc => ?_) h
  split at hc
  case isFalse => simp at hc
  case isTrue =>
    obtain rfl := mem_singleton.mp hc
    refine ⟨_, _, RayQuery.visit_treats, ?_⟩
    rintro w t e s₀ ⟨_, hray, _⟩ ⟨_, _, _, ha, _⟩ hsame
    -- One opcode cannot be both.
    have hray : s₀.op? = some .rayQueryInitializeKHR := by
      simpa [RayQuery.Wants, Statement.is, hsame.op?] using hray
    cases ha
    case load ho _ => simp [ho] at hray
    case store ho _ => simp [ho] at hray

theorem covers_queries (m : Module) (hl : s.limit = 0) (hs : s.rayQuery) (h : w₀.Ready cases w) :
    Leads (runChecks m s) w (fun _ w' => w₀.Ready cases w'
      ∧ w₀.Covers cases RayQuery.Wants RayQuery.Tests w')
      fun _ => True := by
  have hchecks := checks_treat m s
  rw [runChecks]
  rw [checks, hs, if_pos (show true = true from rfl)] at hchecks ⊢
  exact foldlM_covers RayQuery.guarding (if_pos hl) (fun c hc => hchecks c (mem_append_left _ hc))
    (by simp) h

theorem covers_of_run {words : List Word} {p : Pipeline} {count : Nat} (cases : List Word → List Id)
    (h : new words = .ok p) (hb : ∀ f ∈ p.draft.functions, ∀ l ∈ f.targets cases, l < p.draft.bound)
    (hl : s.limit = 0) (hr : (p.run s).1 = .ok count) :
    let q := (p.run s).2
    Forall₂ (fun f₀ f => ∀ s₀ ∈ code f₀.blocks, ((code f.blocks).map Statement.origin).count
      s₀.origin = 1
      ∧ (s.bufferAddress → BufferAddress.Wants p.analysis s₀ →
        f.Covers cases (BufferAddress.Tests p.analysis q.toWorkspace s₀) s₀)
      ∧ (s.rayQuery → RayQuery.Wants s₀ → f.Covers cases (RayQuery.Tests q.toWorkspace s₀) s₀))
      p.draft.functions q.draft.functions := by
  have hready := ready_of_new h hb
  have hadapts := (step_ok (runChecks_adapts p.analysis s hready.original) hr).functions
  have honce : Forall₂ (fun f₀ f => ∀ s₀ ∈ code f₀.blocks,
      ((code f.blocks).map Statement.origin).count s₀.origin = 1) p.draft.functions
        (p.run s).2.draft.functions :=
    ((forall₂_and_left _ _).mpr ⟨hready.original, hadapts⟩).imp fun _ _ ⟨ho, ha⟩ _ hs =>
      ha.count_origin ho hs
  refine forall₂_forall_mem_and honce (forall₂_forall_mem_and ?_ ?_)
  · by_cases hs : s.bufferAddress
    case neg => exact hadapts.imp fun _ _ _ _ _ htrue => absurd htrue hs
    case pos =>
      have hc := (step_ok (covers_accesses p.analysis hl hs hready) hr).right
      exact hc.imp fun _ _ hf s₀ hmem _ => hf s₀ hmem
  · by_cases hs : s.rayQuery
    case neg => exact hadapts.imp fun _ _ _ _ _ htrue => absurd htrue hs
    case pos =>
      have hc := (step_ok (covers_queries p.analysis hl hs hready) hr).right
      exact hc.imp fun _ _ hf s₀ hmem _ => hf s₀ hmem

-- What is loaded is stored again before the query. The only label that was branched to is 17.
def copiesThenQueries : List Word :=
  [0x07230203, 0x00010500, 0, 18, 0,
   0x20013, 1, 0x30021, 2, 1, 0x40015, 3, 32, 0, 0x40020, 4, 5349, 3, 0x3002E, 4, 5,
   0x50036, 1, 6, 0, 2, 0x200F8, 7, 0x4003D, 3, 8, 5, 0x3003E, 5, 8, 0x200F9, 17,
   0x200F8, 17, 0x91179, 9, 10, 11, 12, 13, 14, 15, 16, 0x100FD, 0x10038]

theorem covers_of_run_copiesThenQueries :
    let cases := fun operands : List Word => operands[1]?.toList ++ Block.everyOther
      (operands.drop 3)
    let s : Settings := { bufferAddress := true, rayQuery := true }
    ∃ p, new copiesThenQueries = .ok p
      ∧ let q := (p.run s).2
        (p.run s).1 = .ok 3
        ∧ (p.draft.functions.map (·.targets cases), p.draft.bound) = ([[17]], 18)
        ∧ (∃ f₀ ∈ p.draft.functions, ∃ s₀ ∈ code f₀.blocks,
          s₀.op? = some .store ∧ BufferAddress.Wants p.analysis s₀)
        ∧ Forall₂ (fun f₀ f => ∀ s₀ ∈ code f₀.blocks,
          ((code f.blocks).map Statement.origin).count s₀.origin = 1
          ∧ (s.bufferAddress → BufferAddress.Wants p.analysis s₀ →
            f.Covers cases (BufferAddress.Tests p.analysis q.toWorkspace s₀) s₀)
          ∧ (s.rayQuery → RayQuery.Wants s₀ →
            f.Covers cases (RayQuery.Tests q.toWorkspace s₀) s₀))
          p.draft.functions q.draft.functions := by
  intro cases s
  have hrun : (new copiesThenQueries).map (fun p => decide ((p.run s).1 = .ok 3
      ∧ (p.draft.functions.map (·.targets cases), p.draft.bound) = ([[17]], 18)
      ∧ (p.analysis.typeOf? 5).map (fun type => (type.op?, type.word? 2))
        = some (some .typePointer, some 5349)
      ∧ p.draft.functions.map (fun f => (code f.blocks).map fun s => (s.op?, s.operands.head?))
        = [[(some .load, some 5), (some .store, some 5), (some .branch, some 17),
          (some .rayQueryInitializeKHR, some 9), (some .return, none)]])) = .ok true := by
    decide +kernel
  obtain ⟨p, h, hcount, htargets, htype, hcode⟩ := exists_ok_of_decide hrun
  refine ⟨p, h, hcount, htargets, ?_, covers_of_run cases h ?_ rfl hcount⟩
  case refine_1 =>
    obtain ⟨type, htyped, htype⟩ := Option.map_eq_some_iff.mp htype
    obtain ⟨ho, hstorage⟩ := Prod.mk.inj htype
    obtain ⟨f₀, hf₀, hbody⟩ := mem_map.mp (hcode ▸ mem_cons_self)
    have hmem : (some Op.store, some (5 : Word)) ∈ (code f₀.blocks).map
        fun s => (s.op?, s.operands.head?) := by
      rw [hbody]
      simp
    obtain ⟨s₀, hs₀, heq⟩ := mem_map.mp hmem
    obtain ⟨hstore, hpointer⟩ := Prod.mk.inj heq
    exact ⟨f₀, hf₀, s₀, hs₀, hstore, 5, 1, type, .store hstore hpointer, htyped, ho, hstorage⟩
  case refine_2 =>
    obtain ⟨hlabels, hbound⟩ := Prod.mk.inj htargets
    intro f hf l hl
    have hmem : f.targets cases ∈ [[17]] := hlabels ▸ mem_map_of_mem hf
    rw [mem_singleton.mp hmem, mem_singleton] at hl
    rw [hl, hbound]
    decide

end Pipeline
end Shader
