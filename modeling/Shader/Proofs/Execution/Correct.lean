import Shader.Proofs.Execution.Simulation

namespace Shader

open List Execution

variable {V M : Type}

namespace Execution.Interpretation

variable (I : Interpretation V M)

-- The values of globals go with a module, in which a null constant is null.
structure Models (d : Draft) : Prop where
  declared : ∀ id v, I.global id = some v → ∃ s ∈ d.globals, s.resultId = some id
  null     : ∀ s ∈ d.globals, s.is .constantNull = true → ∀ id type, s.resultId = some id →
    s.resultType = some type → I.global id = some (I.null type)

-- Code that leaves the memory alone and defines ids that the module does not mention.
structure IsTest (d : Draft) (test : List Statement) : Prop where
  straight : ∀ s ∈ test, s.is .phi = false ∧ s.isTerminator = false
  quiet    : ∀ s ∈ test, ∀ locals m, (I.exec s locals m).2 = m
  known    : ∀ s ∈ test, ∀ id ∈ s.ids, id < d.bound
  fresh    : ∀ s ∈ test, ∀ id, s.resultId = some id → ∀ t ∈ d.statements, id ∉ t.ids

end Execution.Interpretation

namespace Block.Structured

variable {b : Block} {target : Statement} {index : Nat}

theorem succ_lt_length (h : b.Structured) (ht : b.body[index]? = some target)
    (hp : target.isTerminator = false) :
    index + 1 < b.body.length := by
  have ⟨hlt, _⟩ := List.getElem?_eq_some_iff.mp ht
  by_contra hge
  have hlast := h.last
  rw [getLast?_eq_getElem?, show b.body.length - 1 = index by omega, ht, Option.any_some] at hlast
  simp [hlast] at hp

theorem isTerminator_eq_false (h : b.Structured) (hl : index + 1 < b.body.length) {s : Statement}
    (hs : b.body[index]? = some s) : s.isTerminator = false := by
  have hd : b.body.dropLast[index]? = some s := by
    rw [getElem?_dropLast, if_pos (by omega), hs]
  exact h.before s (mem_of_getElem? hd)

theorem is_phi_eq_false (h : b.Structured) (hl : b.phis.length ≤ index) :
    ∀ s ∈ b.body.drop index, s.is .phi = false := by
  intro s hs
  rw [b.body_eq_phis_append, drop_append, drop_eq_nil_of_le hl, nil_append] at hs
  exact h.phis s (mem_of_mem_drop hs)

end Block.Structured

namespace Draft

variable {d : Draft} {f : FunctionDraft} {b : Block} {s : Statement} {i : Nat}

theorem mem_statements_of_block (hf : d.functions[i]? = some f) (hb : b ∈ f.blocks)
    (hs : s ∈ b.statements) :
    s ∈ d.statements := by
  refine mem_append_right _ (mem_flatMap.mpr ⟨f, mem_of_getElem? hf, ?_⟩)
  simp only [FunctionDraft.statements, mem_append, mem_flatMap]
  exact .inl (.inr ⟨b, hb, hs⟩)

end Draft

namespace FunctionDraft

variable {f : FunctionDraft} {b : Block} {target : Statement} {block index : Nat}

theorem start_guardAt (hb : f.blocks[block]? = some b) (ht : b.body[index]? = some target)
    (hl : index + 1 < b.body.length) (test : List Statement) (condition : Id) (labels : GuardLabels)
    (merged : Option MergedResult) (locals : Id → V) (m : M) :
    Config.start (f.guardAt block index test condition labels merged) locals m
      = .start f locals m := by
  have hblocks := blocks_guardAt hb ht hl test condition labels merged
  have hf : f.blocks = f.blocks.take block ++ b :: f.blocks.drop (block + 1) := by
    rw [← drop_eq_cons_of_getElem? hb, take_append_drop]
  rw [Config.start, Config.start, hblocks]
  conv => rhs; rw [hf]
  cases f.blocks.take block <;> simp [Block.label_reparent, Block.testing]

end FunctionDraft

namespace Draft

variable {d : Draft} {p : Position} {f : FunctionDraft} {b : Block} {target : Statement}
  {test : List Statement} {condition : Id} {labels : GuardLabels} {merged : Option MergedResult}
  {d' : Draft}

section

variable (I : Interpretation V M) (hids : ∀ s ∈ d.statements, ∀ id ∈ s.ids, id < d.bound)
  (hf : d.functions[p.function]? = some f) (hl : (f.blocks.map Block.label).Nodup)
  (hs : ∀ b ∈ f.blocks, b.Structured) (hb : f.blocks[p.block]? = some b)
  (ht : b.body[p.index]? = some target) (hn : target.is .phi = false)
  (hp : target.isTerminator = false) (htest : I.IsTest d test) (hc : condition < d.bound)

include hids hf in
theorem label_lt_bound {c : Block} (h : c ∈ f.blocks) : c.label < d.bound :=
  hids c.labelStatement (mem_statements_of_block hf h mem_cons_self) c.label
    (Statement.mem_ids_iff.mpr (.inr (.inl rfl)))

include hids hf hl hs hb ht hn hp htest hc in
theorem Guards.guardedBy (hg : Guards p target test condition labels merged d d') :
    GuardedBy ⟨b.label, p.index, target, test, condition⟩ d.bound b labels merged f
      (f.guardAt p.block p.index test condition labels merged) := by
  have hmem : b ∈ f.blocks := mem_of_getElem? hb
  have hlt := (hs b hmem).succ_lt_length ht hp
  have hphis := Block.length_phis_le ht hn
  have hknown {c : Block} (h : c ∈ f.blocks) {s : Statement} (hsc : s ∈ c.body) :
      s ∈ d.statements :=
    mem_statements_of_block hf h (mem_cons_of_mem _ hsc)
  -- Labels are at the bound or above it, and no id in use is.
  have hfresh {id : Id} (hid : id < d.bound) : id ∉ labels.toList :=
    fun hmem => UInt32.not_lt.mpr (hg.fresh id hmem) hid
  have hsucc : ∀ label ∈ b.successors, label ∉ labels.toList := by
    intro label hlabel
    have ⟨s, hsb, hid⟩ := Block.mem_ids_of_mem_successors hlabel
    exact hfresh (hids s (hknown hmem hsb) label hid)
  have hnew := FunctionDraft.labelled?_new hb ht hlt test condition merged hg.distinct
    (fun c h => hfresh (label_lt_bound hids hf h)) hsucc
  exact {
    block := FunctionDraft.labelled?_label hb hl
    target := ht
    notPhi := hn
    straight := fun k hk s hsk =>
      (hs b hmem).isTerminator_eq_false (Nat.lt_of_le_of_lt (Nat.succ_le_succ hk) hlt) hsk
    after := (hs b hmem).is_phi_eq_false (Nat.le_succ_of_le hphis)
    known := fun l c hlc => by
      have hcf := FunctionDraft.mem_of_labelled? hlc
      refine ⟨FunctionDraft.label_of_labelled? hlc ▸ label_lt_bound hids hf hcf,
        fun s hsc id hid => ?_⟩
      refine ⟨hids s (hknown hcf hsc) id hid, fun hd => ?_⟩
      have ⟨t, ht, hr⟩ := mem_filterMap.mp hd
      exact htest.fresh t ht id hr s (hknown hcf hsc) hid
    test := htest.straight
    testIds := htest.known
    condition := hc
    result := hg.result
    moved := fun m hm => (hg.moved m hm).left
    distinct := hg.distinct
    fresh := hg.fresh
    other := fun l hlb hne => FunctionDraft.labelled?_other hb ht hlt hne (hfresh hlb)
    testing := FunctionDraft.labelled?_testing hb ht hlt hl
    permitted := hnew.left
    refused := hnew.right.left
    resumed := hnew.right.right }

theorem Guards.global (hg : Guards p target test condition labels merged d d') (hm : I.Models d') :
    (∀ r ∈ merged, I.global r.moved = none)
      ∧ ∀ r ∈ merged, I.global r.null = some (I.null r.type) := by
  refine ⟨fun r hr => ?_, fun r hr => ?_⟩
  · cases hv : I.global r.moved
    case none => rfl
    case some v =>
      have ⟨s, hs, hid⟩ := hm.declared r.moved v hv
      exact ((hg.moved r hr).right s hs hid).elim
  · have ⟨s, hs, heq⟩ := hg.null r hr
    have hop : s.op? = some .constantNull :=
      (congrArg Statement.op? heq).trans (Statement.op?_new ..)
    exact hm.null s hs (by simp [Statement.is, hop]) r.null r.type (congrArg Statement.resultId heq)
      (congrArg Statement.resultType heq)

end

-- A function runs as before when one of its statements is guarded, except that the statement is
-- skipped and its result is null whenever the condition is false. The guard cannot fail while there
-- are ids left.
theorem guardStatement_runs (I : Interpretation V M)
    (hids : ∀ s ∈ d.statements, ∀ id ∈ s.ids, id < d.bound) (hf : d.functions[p.function]? = some f)
    (hl : (f.blocks.map Block.label).Nodup) (hs : ∀ b ∈ f.blocks, b.Structured)
    (hb : f.blocks[p.block]? = some b) (ht : b.body[p.index]? = some target)
    (hn : target.is .phi = false) (hp : target.isTerminator = false) (htest : I.IsTest d test)
    (hc : condition < d.bound) :
    (d.bound.toNat + 5 ≤ Word.greatest → ∃ q d', guardStatement p test condition d = .ok q d')
      ∧ ∀ q d', guardStatement p test condition d = .ok q d' → I.Models d' → ∃ labels merged,
        let g : Guard := ⟨b.label, p.index, target, test, condition⟩
        let f' := f.guardAt p.block p.index test condition labels merged
        d'.functions[p.function]? = some f' ∧ ∀ (locals : Id → V) (m : M),
          (∀ n, ∃ k,
            (trace (I.step f') n (.start f' locals m)).filterMap (original g labels q.index)
            <+: trace (I.guardedStep f g) k (.start f locals m, locals))
          ∧ ∀ k, ∃ n,
            (trace (I.step f') n (.start f' locals m)).filterMap (original g labels q.index)
            = trace (I.guardedStep f g) k (.start f locals m, locals) := by
  have hat : d.statement? p = some target := by simp [statement?, block?, hf, hb, ht]
  have hglobals : ∀ s ∈ d.globals, ∀ id, s.resultId = some id → id < d.bound := by
    intro s hsg id hid
    exact hids s (by simp [statements, declarations, hsg]) id
      (Statement.mem_ids_iff.mpr (.inr (.inl hid)))
  have hleads : Leads (guardStatement p test condition) d _ _ := guardStatement_leads hglobals hat
  refine ⟨fun hroom => ?_, fun q d' he hm => ?_⟩
  · cases he : guardStatement p test condition d
    case ok q d' => exact ⟨q, d', rfl⟩
    case error e d' =>
      have := hleads.error he
      omega
  · obtain ⟨labels, merged, hq, hg⟩ := hleads.ok he
    refine ⟨labels, merged, ?_, fun locals m => ?_⟩
    · rw [hg.functions, getElem?_modify_eq, hf]
      rfl
    · have hguarded := hg.guardedBy I hids hf hl hs hb ht hn hp htest hc
      obtain ⟨hmoved, hnull⟩ := hg.global I hm
      -- The two machines start in states that match.
      have hsim := hguarded.simulates I htest.quiet hmoved hnull
      have hlt := (hs b (mem_of_getElem? hb)).succ_lt_length ht hp
      rw [FunctionDraft.start_guardAt hb ht hlt, hq]
      refine hsim.trace_eq (.entry ?_ (by simp) (by simp) fun id _ => by simp [Guard.overlay])
      cases hh : f.blocks.head?
      case none => simp [head?_eq_none_iff.mp hh] at hb
      case some c => exact label_lt_bound hids hf (mem_of_head? hh)

-- Evaluated on the lists: a bounded quantifier over words may be decided by going through all of
-- them.
theorem forall_ids_lt {l : List Statement} {bound : Word}
    (h : (l.all fun s => s.ids.all (· < bound)) = true) : ∀ s ∈ l, ∀ id ∈ s.ids, id < bound := by
  simpa only [all_eq_true, decide_eq_true_eq] using h

-- A block that goes back to itself, where a phi takes up what was computed before.
def doublingBlock : Block :=
  ⟨5, [.new .phi (some 1) (some 6) [3, 4, 7, 5], .new .iAdd (some 1) (some 7) [6, 6],
    .new .branchConditional none none [7, 5, 8]]⟩

def doublingFunction : FunctionDraft :=
  ⟨.new .function (some 1) (some 3) [0, 2], [], [⟨4, [.new .branch none none [5]]⟩, doublingBlock,
    ⟨8, [.new .returnValue none none [7]]⟩], .new .functionEnd none none []⟩

def doubling : Draft :=
  ⟨⟨1, 5⟩, 0, 10, 0, [], [], [], [], [], [], [], [], [.new .typeInt none (some 1) [32, 0]],
    [doublingFunction], ∅⟩

-- An instruction adds its operands up, and even numbers are true.
def adding (null : Id) : Interpretation Nat Unit where
  global id := if id = null then some 0 else none
  act _ _ operands m := ((operands.map fun
    | .literal w => w.toNat
    | .value v => v).sum, m)
  select opcode operands _ := match operands with
    | .value v :: _ => if opcode = Op.branchConditional.number ∧ v % 2 = 1 then 1 else 0
    | _ => 0
  truth v := v % 2 = 0
  null _ := 0
  unlisted := 0
  act_selectionMerge _ _ _ := rfl
  select_branch operands _ := by
    split
    case h_1 => exact if_neg fun h => absurd h.left (by decide)
    case h_2 => rfl
  select_branchConditional v operands _ := by
    simp only [true_and, decide_eq_true_eq]
    grind

theorem guardStatement_runs_doubling :
    let I := adding 11
    let test : List Statement := [.new .iEqual (some 1) (some 9) [6, 6]]
    ∃ q d', guardStatement ⟨0, 1, 1⟩ test 9 doubling = .ok q d' ∧ I.Models d' ∧ ∃ labels merged,
      let g : Guard := ⟨5, 1, .new .iAdd (some 1) (some 7) [6, 6], test, 9⟩
      let f' := doublingFunction.guardAt 1 1 test 9 labels merged
      d'.functions[0]? = some f' ∧ ∀ (locals : Id → Nat) (m : Unit),
        (∀ n, ∃ k, (trace (I.step f') n (.start f' locals m)).filterMap (original g labels q.index)
          <+: trace (I.guardedStep doublingFunction g) k (.start doublingFunction locals m, locals))
        ∧ ∀ k, ∃ n, (trace (I.step f') n (.start f' locals m)).filterMap (original g labels q.index)
          = trace (I.guardedStep doublingFunction g) k (.start doublingFunction locals m,
            locals) := by
  intro I test
  have hids : ∀ s ∈ doubling.statements, ∀ id ∈ s.ids, id < doubling.bound :=
    forall_ids_lt (by decide +kernel)
  have hl : (doublingFunction.blocks.map Block.label).Nodup := by decide
  have hs : ∀ b ∈ doublingFunction.blocks, b.Structured := by
    simp only [doublingFunction, forall_mem_cons, not_mem_nil, false_imp_iff, implies_true,
      and_true]
    refine ⟨⟨?_, ?_, ?_⟩, ⟨?_, ?_, ?_⟩, ?_, ?_, ?_⟩ <;> decide +kernel
  have hb : doublingFunction.blocks[1]? = some doublingBlock := rfl
  have ht : doublingBlock.body[1]? = some (.new .iAdd (some 1) (some 7) [6, 6]) := rfl
  have hfresh : ∀ t ∈ doubling.statements, 9 ∉ t.ids := by decide +kernel
  have htest : I.IsTest doubling test := by
    refine ⟨by decide +kernel, by simp [Interpretation.exec, I, adding],
      forall_ids_lt (by decide +kernel), fun s hs id hid => ?_⟩
    cases mem_singleton.mp hs
    cases hid
    exact hfresh
  obtain ⟨hok, hruns⟩ := guardStatement_runs (p := ⟨0, 1, 1⟩) I hids rfl hl hs hb ht
    (by decide +kernel) (by decide +kernel) htest (show 9 < doubling.bound by decide)
  obtain ⟨q, d', he⟩ := hok (by decide)
  have hglobals : (final? (guardStatement ⟨0, 1, 1⟩ test 9) doubling).map Draft.globals
      = some [.new .typeInt none (some 1) [32, 0], .new .constantNull (some 1) (some 11) []] := by
    decide +kernel
  rw [final?_eq_some_iff.mpr ⟨q, he⟩, Option.map_some, Option.some.injEq] at hglobals
  have hm : I.Models d' := by
    refine ⟨fun id v hv => ?_, fun s hsg hn id type hid ht => ?_⟩
    · have hid : id = 11 := by
        by_contra hne
        simp [I, adding, hne] at hv
      exact ⟨.new .constantNull (some 1) (some 11) [], by simp [hglobals], hid ▸ rfl⟩
    · rw [hglobals, mem_cons, mem_singleton] at hsg
      obtain rfl | rfl := hsg
      · simp [Statement.is] at hn
      · cases hid
        rfl
  obtain ⟨labels, merged, hf, hr⟩ := hruns q d' he hm
  exact ⟨q, d', he, hm, labels, merged, hf, hr⟩

end Draft
end Shader
