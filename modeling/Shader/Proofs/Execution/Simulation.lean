import Shader.Proofs.Execution.Guard

namespace Shader.Execution

open List

variable {V M : Type}

section Sites

variable {g : Guard} {bound : Word} {labels : GuardLabels} {phis k : Nat} {l : Id}

theorem ne_of_fresh (hl : l < bound) (hf : ∀ l ∈ labels.toList, bound ≤ l) :
    l ≠ labels.valid ∧ l ≠ labels.invalid ∧ l ≠ labels.merge := by
  have hne {new : Id} (h : new ∈ labels.toList) : l ≠ new :=
    fun heq => UInt32.not_lt.mpr (hf new h) (heq ▸ hl)
  exact ⟨hne (by simp [GuardLabels.toList]), hne (by simp [GuardLabels.toList]),
    hne (by simp [GuardLabels.toList])⟩

theorem originalSite_known (hl : l < bound) (hf : ∀ l ∈ labels.toList, bound ≤ l) :
    originalSite g labels phis ⟨l, k⟩ = if l = g.label ∧ g.index ≤ k then none
      else some ⟨l, k⟩ := by
  have ⟨hv, hi, hm⟩ := ne_of_fresh hl hf
  simp only [originalSite, hv, hi, hm, ↓reduceIte]
  grind

theorem originalSite_merge (hd : labels.Distinct) :
    originalSite g labels phis ⟨labels.merge, phis + k⟩
      = some ⟨g.label, g.index + 1 + k⟩ := by
  simp [originalSite, hd.valid_merge.symm, hd.invalid_merge.symm]

end Sites

namespace Interpretation

variable (I : Interpretation V M)

theorem enter_congr {c c' : Block} {φ : Statement → Statement} {parent' : Option Id}
    {locals locals' : Id → V} (parent : Option Id) (m : M) (hl : c'.label = c.label)
    (hp : c'.phis = c.phis.map φ)
    (hφ : ∀ s, (φ s).opcode = s.opcode ∧ (φ s).resultType = s.resultType
      ∧ (φ s).resultId = s.resultId)
    (hv : ∀ s ∈ c.phis, I.phi locals' parent' (φ s) = I.phi locals parent s) :
    I.enter c' parent' locals' m = ((I.enter c parent locals m).1, ⟨c.label, .inside c.phis.length,
      c.phis.foldl (fun assigned s => assign s.resultId (I.phi locals parent s) assigned) locals',
        m⟩) := by
  have hevents : (I.enter c' parent' locals' m).1 = (I.enter c parent locals m).1 := by
    simp only [enter, hl, hp, zipIdx_map, map_map]
    refine map_congr_left fun (s, k) hs => ?_
    have hs : s ∈ c.phis := fst_mem_of_mem_zipIdx hs
    have ⟨ho, ht, _⟩ := hφ s
    simp [ho, ht, hv s hs]
  have hlocals : c'.phis.foldl (fun assigned s => assign s.resultId (I.phi locals' parent' s)
      assigned) locals'
      = c.phis.foldl (fun assigned s => assign s.resultId (I.phi locals parent s) assigned)
        locals' := by
    rw [hp, foldl_map]
    refine foldl_ext _ _ _ fun assigned s hs => ?_
    rw [(hφ s).right.right, hv s hs]
  have hlength : c'.phis.length = c.phis.length := by rw [hp, length_map]
  refine Prod.ext hevents ?_
  simp only [enter, hlocals, hl, hlength]

theorem enter_of_nil {c : Block} (h : c.phis = []) (parent : Option Id) (locals : Id → V) (m : M) :
    I.enter c parent locals m = ([], ⟨c.label, .inside 0, locals, m⟩) := by
  simp [enter, h]

theorem steps_code {f : FunctionDraft} {c : Block} {l : Id} (hl : f.labelled? l = some c)
    {code : List Statement} {k : Nat} (hc : ∀ j s, code[j]? = some s → c.body[k + j]? = some s)
    (hs : ∀ s ∈ code, s.isTerminator = false) (locals : Id → V) (m : M) :
    ∃ es, (∀ e ∈ es, ∃ j, k ≤ j ∧ e.site = ⟨l, j⟩)
      ∧ Steps (I.step f) code.length ⟨l, .inside k, locals, m⟩ es
      ⟨l, .inside (k + code.length), (I.execAll code locals m).1, (I.execAll code locals m).2⟩ := by
  induction code generalizing k locals m
  case nil => exact ⟨[], by simp, .refl⟩
  case cons s code hi =>
    rw [forall_mem_cons] at hs
    have hstep := I.step_inside hl (hc 0 s rfl) locals m
    simp only [hs.left, Bool.false_eq_true, ↓reduceIte, Nat.add_zero] at hstep
    have htail (j : Nat) (t : Statement) (hj : code[j]? = some t) : c.body[k + 1 + j]?
        = some t := by
      rw [Nat.add_right_comm]
      exact hc (j + 1) t hj
    have ⟨es, hsites, hsteps⟩ := hi htail hs.right (I.exec s locals m).1 (I.exec s locals m).2
    refine ⟨I.event l k s locals m :: es, ?_, ?_⟩
    · rw [forall_mem_cons]
      exact ⟨⟨k, Nat.le_refl k, rfl⟩, fun e he => (hsites e he).imp fun j hj =>
        ⟨by omega, hj.right⟩⟩
    · rw [length_cons, ← Nat.add_assoc, Nat.add_right_comm]
      exact .cons hstep hsteps

section

variable {f : FunctionDraft} {c : Block} {l : Id} {k : Nat} {labels : GuardLabels}

theorem step_declareMerge (hl : f.labelled? l = some c)
    (hs : c.body[k]? = some (Block.declareMerge labels)) (locals : Id → V) (m : M) :
    I.step f ⟨l, .inside k, locals, m⟩
      = some ([I.event l k (Block.declareMerge labels) locals m],
        ⟨l, .inside (k + 1), locals, m⟩) := by
  rw [I.step_inside hl hs, if_neg (by simp [Block.declareMerge, Statement.isTerminator,
    Op.isTerminator])]
  have hm := I.act_selectionMerge none (values (I.read locals) (Block.declareMerge labels)) m
  simp only [advance, exec]
  rw [show (Block.declareMerge labels).opcode = Op.selectionMerge.number from rfl,
    show (Block.declareMerge labels).resultType = none from rfl, hm]
  rfl

theorem values_branchOn (read : Id → V) (condition : Id) (labels : GuardLabels) :
    values read (Block.branchOn condition labels)
      = [.value (read condition), .value (read labels.valid), .value (read labels.invalid)] := by
  have hid (k : Nat) (hk : k < 3) : (Block.branchOn condition labels).isId k = true := by
    have ho : (Block.branchOn condition labels).op? = some .branchConditional :=
      Statement.op?_new ..
    rw [Statement.isId_eq ho]
    exact decide_eq_true hk
  have hoperands : (Block.branchOn condition labels).operands
    = [condition, labels.valid, labels.invalid] := rfl
  simp [values, hoperands, hid]

theorem step_branchOn {condition : Id} (hl : f.labelled? l = some c)
    (hs : c.body[k]? = some (Block.branchOn condition labels))
    (hc : c.successors = [labels.valid, labels.invalid]) (locals : Id → V) (m : M) :
    I.step f ⟨l, .inside k, locals, m⟩
      = some ([I.event l k (Block.branchOn condition labels) locals m],
        ⟨if I.truth (I.read locals condition) then labels.valid else labels.invalid,
          .entry (some l), locals, m⟩) := by
  rw [I.step_inside hl hs, if_pos (by simp [Block.branchOn, Statement.isTerminator,
    Op.isTerminator]), hc, leave, values_branchOn, show (Block.branchOn condition labels).opcode
    = Op.branchConditional.number from rfl,
    I.select_branchConditional]
  cases I.truth (I.read locals condition) <;> rfl

theorem step_toMerge (hl : f.labelled? l = some c) (hs : c.body[k]? = some (Block.toMerge labels))
    (hc : c.successors = [labels.merge]) (locals : Id → V) (m : M) :
    I.step f ⟨l, .inside k, locals, m⟩
      = some ([I.event l k (Block.toMerge labels) locals m],
        ⟨labels.merge, .entry (some l), locals, m⟩) := by
  rw [I.step_inside hl hs, if_pos (by simp [Block.toMerge, Statement.isTerminator,
    Op.isTerminator]), hc, leave, show (Block.toMerge labels).opcode = Op.branch.number from rfl,
    I.select_branch]
  rfl

end

theorem site_of_mem_enter {c : Block} {parent : Option Id} {locals : Id → V} {m : M} {e : Event V M}
    (he : e ∈ (I.enter c parent locals m).1) : ∃ k < c.phis.length, e.site = ⟨c.label, k⟩ := by
  have ⟨(s, k), hs, heq⟩ := mem_map.mp he
  have hk := (mem_zipIdx' hs).left
  exact ⟨k, hk, heq ▸ rfl⟩

end Interpretation

theorem Agrees.foldl_assign {g : Guard} {bound : Word} {kept locals locals' : Id → V}
    (h : Agrees g bound kept locals locals') {ss : List Statement} (v : Statement → V)
    (hs : ∀ s ∈ ss, ∀ id ∈ s.resultId, id ∉ g.defines) :
    Agrees g bound kept
      (ss.foldl (fun assigned s => Execution.assign s.resultId (v s) assigned) locals)
      (ss.foldl (fun assigned s => Execution.assign s.resultId (v s) assigned) locals') := by
  induction ss generalizing locals locals'
  case nil => exact h
  case cons s ss hi =>
    rw [forall_mem_cons] at hs
    exact hi (h.assign hs.left (v s)) hs.right

theorem mem_ids_of_phi {s : Statement} (hs : s.is .phi = true) {id : Id} (h : id ∈ s.operands) :
    id ∈ s.ids := by
  have ⟨k, hk⟩ := mem_iff_getElem?.mp h
  have ho : s.op? = some .phi := by simpa [Statement.is] using hs
  exact Statement.mem_ids_iff.mpr (.inr (.inr ⟨k, hk, Statement.isId_eq ho k⟩))

namespace GuardedBy

variable {g : Guard} {bound : Word} {b : Block} {labels : GuardLabels}
  {merged : Option MergedResult} {f f' : FunctionDraft} {kept locals locals' : Id → V} {m : M}
  {l : Id} {k : Nat} {c : Block} {s : Statement} {parent : Option Id}

theorem label_lt (h : GuardedBy g bound b labels merged f f') : g.label < bound :=
  (h.known g.label b h.block).left

theorem length_phis_le (h : GuardedBy g bound b labels merged f f') : b.phis.length ≤ g.index :=
  Block.length_phis_le h.target h.notPhi

theorem successor_lt (h : GuardedBy g bound b labels merged f f') (hc : f.labelled? l = some c)
    {next : Id} (hn : next ∈ c.successors) : next < bound := by
  have ⟨s, hs, hid⟩ := Block.mem_ids_of_mem_successors hn
  exact ((h.known l c hc).right s hs next hid).left

theorem phis_testing (h : GuardedBy g bound b labels merged f f') :
    (Block.testing g.label (b.body.take g.index) g.test g.condition labels).phis = b.phis :=
  Block.phis_testing h.target h.notPhi (fun s hs => (h.test s hs).left) ..

theorem getElem?_testingBlock (h : GuardedBy g bound b labels merged f f')
    (hk : b.phis.length ≤ k) :
    (testingBlock g b labels).body[k]? = (b.body.take g.index ++ (g.test
      ++ [Block.declareMerge labels, Block.branchOn g.condition labels]))[k]? := by
  rw [testingBlock, Block.getElem?_reparent _ (by rwa [h.phis_testing]), Block.testing,
    append_assoc]

theorem getElem?_test (h : GuardedBy g bound b labels merged f f') (j : Nat) :
    (testingBlock g b labels).body[g.index + j]?
      = (g.test ++ [Block.declareMerge labels, Block.branchOn g.condition labels])[j]? := by
  have ⟨hlen, _⟩ := List.getElem?_eq_some_iff.mp h.target
  have htake : (b.body.take g.index).length = g.index := by rw [length_take]; omega
  have hphis := h.length_phis_le
  rw [h.getElem?_testingBlock (by omega), getElem?_append_right (by omega), htake,
    Nat.add_sub_cancel_left]

theorem successors_testingBlock (h : GuardedBy g bound b labels merged f f') :
    (testingBlock g b labels).successors = [labels.valid, labels.invalid] := by
  have hphis := h.length_phis_le
  have ⟨s, hs⟩ : ∃ s, (testingBlock g b labels).body[g.index + g.test.length]? = some s :=
    ⟨Block.declareMerge labels, (h.getElem?_test _).trans (by simp)⟩
  rw [testingBlock, Block.getElem?_reparent _ (by rw [h.phis_testing]; omega)] at hs
  rw [testingBlock, Block.successors_reparent _ (by rw [h.phis_testing]; omega) hs,
    Block.successors_testing]

def reparenting (b : Block) (g : Guard) (labels : GuardLabels) (l : Id) : Statement → Statement :=
  if b.successors.contains l then Statement.reparent g.label labels.merge else id

theorem reparenting_same (b : Block) (g : Guard) (labels : GuardLabels) (l : Id) (s : Statement) :
    (reparenting b g labels l s).opcode = s.opcode
      ∧ (reparenting b g labels l s).resultType = s.resultType
      ∧ (reparenting b g labels l s).resultId = s.resultId := by
  unfold reparenting
  split <;> exact ⟨rfl, rfl, rfl⟩

theorem labelled?_eq_some (h : GuardedBy g bound b labels merged f f')
    (hc : f.labelled? l = some c) :
    ∃ c', f'.labelled? l = some c' ∧ c'.label = c.label
      ∧ c'.phis = c.phis.map (reparenting b g labels l) := by
  have hl := FunctionDraft.label_of_labelled? hc
  by_cases heq : l = g.label
  case pos =>
    subst heq
    obtain rfl : b = c := Option.some.inj (h.block.symm.trans hc)
    refine ⟨_, h.testing, ?_, ?_⟩
    · rw [testingBlock, Block.label_reparent, hl]
      rfl
    · rw [testingBlock, Block.phis_reparent, h.phis_testing]
      rfl
  case neg =>
    refine ⟨c.reparent b.successors g.label labels.merge, ?_, Block.label_reparent .., ?_⟩
    · rw [h.other l (h.known l c hc).left heq, hc, Option.map_some]
    · rw [Block.phis_reparent, hl]
      rfl

theorem labelled?_inside (h : GuardedBy g bound b labels merged f f') (hc : f.labelled? l = some c)
    (hk : l = g.label → k < g.index) (hp : c.phis.length ≤ k) :
    ∃ c', f'.labelled? l = some c' ∧ c'.body[k]? = c.body[k]?
      ∧ (l ≠ g.label → ∀ s, c.body[k]? = some s → c'.successors = c.successors) := by
  by_cases heq : l = g.label
  case pos =>
    subst heq
    obtain rfl : b = c := Option.some.inj (h.block.symm.trans hc)
    have hlt := hk rfl
    have ⟨hlen, _⟩ := List.getElem?_eq_some_iff.mp h.target
    refine ⟨_, h.testing, ?_, fun hne => (hne rfl).elim⟩
    rw [h.getElem?_testingBlock hp, getElem?_append_left (by rw [length_take]; omega),
      getElem?_take_of_lt hlt]
  case neg =>
    refine ⟨c.reparent b.successors g.label labels.merge, ?_, Block.getElem?_reparent _ hp,
      fun _ s hs => ?_⟩
    · rw [h.other l (h.known l c hc).left heq, hc, Option.map_some]
    · exact Block.successors_reparent _ hp hs

theorem labelled?_eq_none (h : GuardedBy g bound b labels merged f f') (hl : l < bound)
    (hc : f.labelled? l = none) : f'.labelled? l = none := by
  have hne : l ≠ g.label := by
    rintro rfl
    simp [h.block] at hc
  rw [h.other l hl hne, hc, Option.map_none]

theorem phi_eq (h : GuardedBy g bound b labels merged f f') (I : Interpretation V M)
    (ha : Agrees g bound kept locals locals') (hs : s.is .phi = true)
    (hids : ∀ id ∈ s.ids, id < bound ∧ id ∉ g.defines) (hp : ∀ p ∈ parent, p < bound)
    (hl : parent = some g.label → l ∈ b.successors) :
    I.phi locals' (parent.map (exitLabel g labels)) (reparenting b g labels l s)
      = I.phi locals parent s := by
  have hmerge {id : Id} (hid : id < bound) : id ≠ labels.merge :=
    (ne_of_fresh hid h.fresh).right.right
  have hsource : phiSource? (parent.map (exitLabel g labels)) (reparenting b g labels l s).operands
      = phiSource? parent s.operands := by
    unfold reparenting
    split
    case isTrue =>
      refine phiSource?_replaceParents (fun heq => ?_) fun hmem => ?_
      · exact hmerge (hp labels.merge heq) rfl
      · exact hmerge (hids labels.merge (mem_ids_of_phi hs hmem)).left rfl
    case isFalse hn =>
      have hne : parent ≠ some g.label := fun heq => hn (by simpa using hl heq)
      have hsame : parent.map (exitLabel g labels) = parent := by
        cases parent
        case none => rfl
        case some p => simpa [exitLabel] using fun heq => (hne (congrArg some heq)).elim
      rw [hsame]
      rfl
  rw [Interpretation.phi, Interpretation.phi, hsource]
  cases hid : phiSource? parent s.operands
  case none => rfl
  case some id =>
    have hid := hids id (mem_ids_of_phi hs (mem_of_phiSource? hid))
    exact ha.read I hid.left hid.right

theorem guardedStep_of_ne {cfg : Config V M} (I : Interpretation V M)
    (hn : ¬(cfg.label = g.label ∧ cfg.point = .inside g.index)) :
    I.guardedStep f g (cfg, kept) = (I.step f cfg).map fun x => (x.1, x.2, kept) := by
  simp only [Interpretation.guardedStep, hn, ↓reduceIte]

variable (g bound b labels merged f f') in
def Answers (I : Interpretation V M) (done : Option (List (Event V M) × Config V M × (Id → V)))
    (cfg : Config V M) : Prop :=
  Answered (I.step f') (original g labels merged.toList.length) (Matches g bound b labels merged f)
    done cfg

section

variable (h : GuardedBy g bound b labels merged f f') (I : Interpretation V M)
  (ha : Agrees g bound kept locals locals')

include h ha in
theorem matches_successor (hc : f.labelled? l = some c) {next : Id} (hn : next ∈ c.successors) :
    Matches g bound b labels merged f (⟨next, .entry (some l), locals, m⟩, kept)
      ⟨next, .entry (some (exitLabel g labels l)), locals', m⟩ := by
  refine .entry (h.successor_lt hc hn) (by simpa using (h.known l c hc).left) (fun heq => ?_) ha
  cases heq
  exact Option.some.inj (hc.symm.trans h.block) ▸ hn

include ha in
theorem answers_statement {l' : Id} {k' : Nat} {successors : List Id}
    (hids : ∀ id ∈ s.ids, id < bound ∧ id ∉ g.defines)
    (hsite : originalSite g labels merged.toList.length ⟨l', k'⟩ = some ⟨l, k⟩)
    (hstep : I.step f' ⟨l', .inside k', locals', m⟩ = some ([I.event l' k' s locals' m],
      if s.isTerminator then I.leave l' successors s locals' m else I.advance l' k' s locals' m))
    (hleave : s.isTerminator = true →
      ∀ next ∈ successors, Matches g bound b labels merged f (⟨next, .entry (some l), locals, m⟩,
      kept) ⟨next, .entry (some l'), locals', m⟩)

    (hadvance : s.isTerminator = false →
      ∀ locals locals' (m : M), Agrees g bound kept locals locals' →
      Matches g bound b labels merged f (⟨l, .inside (k + 1), locals, m⟩, kept)
        ⟨l', .inside (k' + 1), locals', m⟩) :
    Answers g bound b labels merged f f' I (some ([I.event l k s locals m],
      if s.isTerminator then I.leave l successors s locals m else I.advance l k s locals m, kept))
      ⟨l', .inside k', locals', m⟩ := by
  have hv := ha.values I hids
  refine .one hstep ?_ ?_
  · simp [Interpretation.event, original, hsite, hv]
  · cases ht : s.isTerminator
    case true =>
      simp only [↓reduceIte, Interpretation.leave, hv]
      cases hnext : successors[I.select s.opcode (values (I.read locals) s) m]?
      case none => exact .ended
      case some next => exact hleave ht next (mem_of_getElem? hnext)
    case false =>
      simp only [Bool.false_eq_true, ↓reduceIte, Interpretation.advance, Interpretation.exec, hv]
      exact hadvance ht _ _ _ (ha.assign (Agrees.result_not_mem hids) _)

include h ha in
theorem answers_entry (hl : l < bound) (hp : ∀ p ∈ parent, p < bound)
    (hs : parent = some g.label → l ∈ b.successors) :
    Answers g bound b labels merged f f' I (I.guardedStep f g (⟨l, .entry parent, locals, m⟩, kept))
      ⟨l, .entry (parent.map (exitLabel g labels)), locals', m⟩ := by
  rw [guardedStep_of_ne I (by simp)]
  cases hc : f.labelled? l
  case none =>
    rw [I.step_of_none hc]
    exact I.step_of_none (h.labelled?_eq_none hl hc) ..
  case some c =>
    have ⟨c', hc', hlabel, hphis⟩ := h.labelled?_eq_some hc
    have hcl := FunctionDraft.label_of_labelled? hc
    have hids {s : Statement} (hmem : s ∈ c.phis) :=
      (h.known l c hc).right s (Block.mem_body_of_mem_phis hmem)
    -- The guarded statement is no phi, so it stands behind those of its block.
    have hin : l = g.label → c.phis.length ≤ g.index := by
      rintro rfl
      obtain rfl : b = c := Option.some.inj (h.block.symm.trans hc)
      exact h.length_phis_le
    have henter := I.enter_congr parent m hlabel hphis (reparenting_same b g labels l) fun s hmem =>
      h.phi_eq I ha (Block.is_phi_of_mem_phis hmem) (hids hmem) hp hs
    rw [I.step_entry hc, Option.map_some]
    refine .one (by rw [I.step_entry hc', henter]) ?_ ?_
    · have hvisible : ∀ e ∈ (I.enter c parent locals m).1, original g labels merged.toList.length e
          = some e := by
        intro e he
        have ⟨k, hk, hsite⟩ := I.site_of_mem_enter he
        have hn : ¬(l = g.label ∧ g.index ≤ k) := fun ⟨heq, hle⟩ => by
          have := hin heq
          omega
        rw [original, hsite, hcl, originalSite_known hl h.fresh, if_neg hn, ← hcl, ← hsite]
        rfl
      rw [filterMap_congr hvisible, filterMap_some]
    · subst hcl
      refine .inside hl hin (fun c₂ hc₂ => ?_) (ha.foldl_assign _ fun s hmem =>
        Agrees.result_not_mem (hids hmem))
      exact Option.some.inj (hc.symm.trans hc₂) ▸ Nat.le_refl _

include h ha in
theorem answers_inside (hl : l < bound) (hk : l = g.label → k < g.index)
    (hp : ∀ c, f.labelled? l = some c → c.phis.length ≤ k) :
    Answers g bound b labels merged f f' I (I.guardedStep f g (⟨l, .inside k, locals, m⟩, kept))
      ⟨l, .inside k, locals', m⟩ := by
  have hn : ¬(l = g.label ∧ Point.inside k = .inside g.index) := fun ⟨heq, hpoint⟩ => by
    have := hk heq
    cases hpoint
    omega
  rw [guardedStep_of_ne I hn]
  cases hc : f.labelled? l
  case none =>
    rw [I.step_of_none hc]
    exact I.step_of_none (h.labelled?_eq_none hl hc) ..
  case some c =>
    have ⟨c', hc', hbody, hsucc⟩ := h.labelled?_inside hc hk (hp c hc)
    cases hs : c.body[k]?
    case none =>
      rw [I.step_inside_none hc hs]
      exact I.step_inside_none hc' (hbody.trans hs) ..
    case some s =>
      have hstep := I.step_inside hc' (hbody.trans hs) locals' m
      -- Ahead of the guarded statement there is no terminator.
      have hstraight : l = g.label → s.isTerminator = false := by
        rintro rfl
        obtain rfl : b = c := Option.some.inj (h.block.symm.trans hc)
        exact h.straight k (Nat.le_of_lt (hk rfl)) s hs
      rw [I.step_inside hc hs, Option.map_some]
      refine answers_statement I ha ((h.known l c hc).right s (mem_of_getElem? hs)) ?_ ?_
        (fun ht next hnext => ?_)
        fun _ locals locals' m ha => .inside hl hk (fun c₂ hc₂ => Nat.le_succ_of_le (hp c₂ hc₂)) ha
      · have hsite : ¬(l = g.label ∧ g.index ≤ k) := fun ⟨heq, hle⟩ => by
          have := hk heq
          omega
        rw [originalSite_known hl h.fresh, if_neg hsite]
      · by_cases heq : l = g.label
        case pos => simpa [hstraight heq] using hstep
        case neg => rwa [hsucc heq s hs] at hstep
      · have hne : l ≠ g.label := fun heq => by simp [hstraight heq] at ht
        simpa [exitLabel, hne] using h.matches_successor ha hc hnext

include h ha in
theorem answers_resumed :
    Answers g bound b labels merged f f' I
      (I.guardedStep f g (⟨g.label, .inside (g.index + 1 + k), locals, m⟩, kept))
      ⟨labels.merge, .inside (merged.toList.length + k), locals', m⟩ := by
  rw [guardedStep_of_ne I (by simp; omega)]
  have hbody :
      (Block.resumed (b.body.drop (g.index + 1)) labels merged).body[merged.toList.length + k]?
      = b.body[g.index + 1 + k]? := by
    rw [Block.resumed, getElem?_append_right (by simp), length_map, getElem?_drop,
      Nat.add_sub_cancel_left]
  cases hs : b.body[g.index + 1 + k]?
  case none =>
    rw [I.step_inside_none h.block hs]
    exact I.step_inside_none h.resumed (hbody.trans hs) ..
  case some s =>
    have hstep := I.step_inside h.resumed (hbody.trans hs) locals' m
    rw [Block.successors_resumed hs] at hstep
    rw [I.step_inside h.block hs, Option.map_some]
    refine answers_statement I ha ((h.known _ b h.block).right s (mem_of_getElem? hs))
      (originalSite_merge h.distinct) hstep (fun _ next hnext => ?_) fun _ locals locals' m ha =>
      .resumed (k := k + 1) ha
    simpa [exitLabel] using h.matches_successor ha h.block hnext

include h in
theorem hidden_test {es : List (Event V M)}
    (hs : ∀ e ∈ es, ∃ j, g.index ≤ j ∧ e.site = ⟨g.label, j⟩) :
    es.filterMap (original g labels merged.toList.length) = [] := by
  refine filterMap_eq_nil_iff.mpr fun e he => ?_
  have ⟨j, hj, hsite⟩ := hs e he
  rw [original, hsite, originalSite_known h.label_lt h.fresh, if_pos ⟨rfl, hj⟩, Option.map_none]

include h in
theorem steps_test (hq : ∀ s ∈ g.test, ∀ locals m, (I.exec s locals m).2 = m) (locals' : Id → V)
    (m : M) :
    let tested := (I.execAll g.test locals' m).1
    ∃ es, es.filterMap (original g labels merged.toList.length) = []
      ∧ Steps (I.step f') (g.test.length + 1 + 1) ⟨g.label, .inside g.index, locals', m⟩ es
        ⟨if I.truth (I.read tested g.condition) then labels.valid else labels.invalid,
          .entry (some g.label), tested, m⟩ := by
  intro tested
  have hcode (j : Nat) (s : Statement) (hj : g.test[j]? = some s) :
      (testingBlock g b labels).body[g.index + j]? = some s := by
    have ⟨hlt, _⟩ := List.getElem?_eq_some_iff.mp hj
    rw [h.getElem?_test, getElem?_append_left hlt, hj]
  have ⟨es, hsites, hsteps⟩ :=
    I.steps_code h.testing hcode (fun s hs => (h.test s hs).right) locals' m
  rw [I.execAll_memory hq] at hsteps
  have hdeclare : (testingBlock g b labels).body[g.index + g.test.length]?
      = some (Block.declareMerge labels) :=
    (h.getElem?_test _).trans (by simp)
  have hbranch : (testingBlock g b labels).body[g.index + (g.test.length + 1)]?
      = some (Block.branchOn g.condition labels) :=
    (h.getElem?_test _).trans (by simp)
  have hs₁ := I.step_declareMerge h.testing hdeclare tested m
  have hs₂ := I.step_branchOn h.testing hbranch h.successors_testingBlock tested m
  refine ⟨_, h.hidden_test ?_, (hsteps.trans (.one hs₁)).trans (.one hs₂)⟩
  simp only [mem_append, mem_singleton]
  rintro e ((he | rfl) | rfl)
  · exact hsites e he
  · exact ⟨_, Nat.le_add_right .., rfl⟩
  · exact ⟨_, Nat.le_add_right .., rfl⟩

def joined (I : Interpretation V M) (labels : GuardLabels) (merged : Option MergedResult)
    (parent : Id) (locals : Id → V) : Id → V :=
  merged.elim locals fun r =>
    Function.update locals r.result (I.phi locals (some parent) (Block.mergePhi labels r))

include h in
theorem step_resumed (parent : Id) (locals : Id → V) (m : M) :
    ∃ es, es.filterMap (original g labels merged.toList.length) = []
      ∧ I.step f' ⟨labels.merge, .entry (some parent), locals, m⟩
        = some (es, ⟨labels.merge, .inside merged.toList.length,
          joined I labels merged parent locals, m⟩) := by
  have hphis : (Block.resumed (b.body.drop (g.index + 1)) labels merged).phis = _ :=
    Block.phis_resumed h.after merged
  have hstep := I.step_entry h.resumed (some parent) locals m
  have hconfig : (I.enter (.resumed (b.body.drop (g.index + 1)) labels merged) (some parent)
      locals m).2
      = ⟨labels.merge, .inside merged.toList.length, joined I labels merged parent locals, m⟩ := by
    rw [Interpretation.enter, hphis, length_map, foldl_map, joined]
    cases merged <;> rfl
  refine ⟨_, filterMap_eq_nil_iff.mpr fun e he => ?_,
    hstep.trans (congrArg some (Prod.ext rfl hconfig))⟩
  have ⟨k, hk, hsite⟩ := I.site_of_mem_enter he
  rw [hphis, length_map] at hk
  have hn : ¬merged.toList.length ≤ k := by omega
  rw [original, hsite, show (Block.resumed (b.body.drop (g.index + 1)) labels merged).label
    = labels.merge from rfl]
  simp [originalSite, h.distinct.valid_merge.symm, h.distinct.invalid_merge.symm, hn]

include h in
theorem steps_refused (parent : Option Id) (locals : Id → V) (m : M) :
    ∃ es, es.filterMap (original g labels merged.toList.length) = []
      ∧ Steps (I.step f') (1 + 1 + 1) ⟨labels.invalid, .entry parent, locals, m⟩ es
        ⟨labels.merge, .inside merged.toList.length, joined I labels merged labels.invalid locals,
          m⟩ := by
  have hs₁ := I.step_entry h.refused parent locals m
  rw [I.enter_of_nil (Block.phis_refused labels)] at hs₁
  have hs₂ := I.step_toMerge h.refused (k := 0) rfl (Block.successors_of_toMerge rfl) locals m
  have ⟨es, hes, hs₃⟩ := h.step_resumed I labels.invalid locals m
  refine ⟨_, ?_, ((Steps.one hs₁).trans (.one hs₂)).trans (.one hs₃)⟩
  rw [filterMap_append, hes]
  simp [original, Interpretation.event, originalSite, h.distinct.valid_invalid.symm]

include h in
theorem steps_permitted (parent : Option Id) (locals : Id → V) (m : M) :
    let done := I.act g.target.opcode g.target.resultType (values (I.read locals) g.target) m
    ∃ es, es.filterMap (original g labels merged.toList.length)
      = [I.event g.label g.index g.target locals m]
      ∧ Steps (I.step f') (1 + 1 + 1 + 1) ⟨labels.valid, .entry parent, locals, m⟩ es
        ⟨labels.merge, .inside merged.toList.length, joined I labels merged labels.valid
          (assign (merged.elim g.target.resultId fun r => some r.moved) done.1 locals),
            done.2⟩ := by
  intro done
  -- Into the block, through the statement, to the merge block, past its phis.
  have hs₁ := I.step_entry h.permitted parent locals m
  rw [I.enter_of_nil (Block.phis_permitted h.notPhi ..)] at hs₁
  have hs₂ := I.step_inside h.permitted (k := 0) rfl locals m
  have hstraight : (merged.elim g.target
      fun m => { g.target with resultId := some m.moved }).isTerminator = false := by
    cases merged <;> exact h.straight g.index (Nat.le_refl _) g.target h.target
  rw [if_neg (by simp [hstraight])] at hs₂
  have hs₃ := I.step_toMerge h.permitted (k := 1) rfl (Block.successors_of_toMerge rfl)
    (assign (merged.elim g.target.resultId fun r => some r.moved) done.1 locals) done.2
  have ⟨es, hes, hs₄⟩ := h.step_resumed I labels.valid
    (assign (merged.elim g.target.resultId fun r => some r.moved) done.1 locals) done.2
  have hadvance : I.advance labels.valid 0 (merged.elim g.target
      fun m => { g.target with resultId := some m.moved })
      locals m = ⟨labels.valid, .inside 1,
        assign (merged.elim g.target.resultId fun r => some r.moved) done.1 locals, done.2⟩ := by
    cases merged <;> rfl
  rw [hadvance] at hs₂
  refine ⟨_, ?_, (((Steps.one hs₁).trans (.one hs₂)).trans (.one hs₃)).trans (.one hs₄)⟩
  rw [filterMap_append, hes]
  have hevent : I.event labels.valid 0 (merged.elim g.target
      fun m => { g.target with resultId := some m.moved }) locals m
      = { I.event g.label g.index g.target locals m with site := ⟨labels.valid, 0⟩ } := by
    cases merged <;> rfl
  rw [hevent]
  simp [original, Interpretation.event, originalSite]

include h ha in
theorem agrees_permitted (hmoved : ∀ r ∈ merged, I.global r.moved = none) (v : V) :
    Agrees g bound kept (assign g.target.resultId v locals)
      (joined I labels merged labels.valid
        (assign (merged.elim g.target.resultId fun r => some r.moved) v locals')) := by
  have hids := (h.known g.label b h.block).right g.target (mem_of_getElem? h.target)
  have hresult := h.result
  cases merged
  case none => exact ha.assign (Agrees.result_not_mem hids) v
  case some r =>
    have hphi : I.phi (Function.update locals' r.moved v) (some labels.valid)
        (Block.mergePhi labels r) = v := by
      have hsource : phiSource? (some labels.valid) (Block.mergePhi labels r).operands
        = some r.moved := if_pos rfl
      rw [Interpretation.phi, hsource, Option.map_some, Option.getD_some, Interpretation.read,
        hmoved r rfl, Option.getD_none, Function.update_self]
    have hjoined : joined I labels (some r) labels.valid (Function.update locals' r.moved v)
        = assign g.target.resultId v (Function.update locals' r.moved v) := by
      rw [h.result.of_some.right, joined, Option.elim_some, hphi]
      rfl
    exact hjoined ▸ (ha.update (h.moved r rfl) v).assign (Agrees.result_not_mem hids) v

include h ha in
theorem agrees_refused (hnull : ∀ r ∈ merged, I.global r.null = some (I.null r.type)) :
    Agrees g bound kept (I.skip g.target locals)
      (joined I labels merged labels.invalid locals') := by
  have hids := (h.known g.label b h.block).right g.target (mem_of_getElem? h.target)
  have hresult := h.result
  cases merged
  case none =>
    have hskip : I.skip g.target locals = locals := by
      unfold Interpretation.skip
      split
      case h_1 ht hr => exact (hresult.of_none ht hr).elim
      case h_2 => rfl
    exact hskip.symm ▸ ha
  case some r =>
    have ⟨ht, hr⟩ := hresult.of_some
    have hphi : I.phi locals' (some labels.invalid) (Block.mergePhi labels r) = I.null r.type := by
      have hsource : phiSource? (some labels.invalid) (Block.mergePhi labels r).operands
          = some r.null := by
        simp [Block.mergePhi, Statement.new, phiSource?, h.distinct.valid_invalid.symm]
      rw [Interpretation.phi, hsource, Option.map_some, Option.getD_some, Interpretation.read,
        hnull r rfl, Option.getD_some]
    have hjoined : joined I labels (some r) labels.invalid locals'
        = assign g.target.resultId (I.null r.type) locals' := by
      rw [hr, joined, Option.elim_some, hphi]
      rfl
    have hskip : I.skip g.target locals = assign g.target.resultId (I.null r.type) locals := by
      rw [Interpretation.skip, ht, hr]
      rfl
    rw [hjoined, hskip]
    exact ha.assign (Agrees.result_not_mem hids) _

include h ha in
theorem answers_target (hq : ∀ s ∈ g.test, ∀ locals m, (I.exec s locals m).2 = m)
    (hmoved : ∀ r ∈ merged, I.global r.moved = none)
    (hnull : ∀ r ∈ merged, I.global r.null = some (I.null r.type)) :
    Answers g bound b labels merged f f' I
      (I.guardedStep f g (⟨g.label, .inside g.index, locals, m⟩, kept))
      ⟨g.label, .inside g.index, locals', m⟩ := by
  have ⟨hat, hread⟩ := I.execAll_test h.testIds ha m
  have ⟨es, hes, hsteps⟩ := h.steps_test I hq locals' m
  have hids := (h.known g.label b h.block).right g.target (mem_of_getElem? h.target)
  simp only [hread g.condition h.condition] at hsteps
  simp only [Interpretation.guardedStep, and_self, ↓reduceIte]
  split
  case isTrue ht =>
    simp only [ht, ↓reduceIte] at hsteps
    have ⟨es', hes', hsteps'⟩ := h.steps_permitted I (some g.label) (I.execAll g.test locals' m).1 m
    have hstraight := h.straight g.index (Nat.le_refl _) g.target h.target
    rw [I.step_inside h.block h.target, Option.map_some, if_neg (by simp [hstraight])]
    refine .steps (hsteps.trans hsteps') (by omega) ?_ ?_
    · rw [filterMap_append, hes, hes', nil_append, Interpretation.event, hat.values I hids]
      rfl
    · rw [hat.values I hids]
      exact .resumed (k := 0) (h.agrees_permitted I hat hmoved _)
  case isFalse ht =>
    simp only [ht, Bool.false_eq_true, ↓reduceIte] at hsteps
    have ⟨es', hes', hsteps'⟩ := h.steps_refused I (some g.label) (I.execAll g.test locals' m).1 m
    refine .steps (hsteps.trans hsteps') (by omega) ?_ ?_
    · rw [filterMap_append, hes, hes', append_nil]
    · exact .resumed (k := 0) (h.agrees_refused I hat hnull)

include h in
theorem simulates (hq : ∀ s ∈ g.test, ∀ locals m, (I.exec s locals m).2 = m)
    (hmoved : ∀ r ∈ merged, I.global r.moved = none)
    (hnull : ∀ r ∈ merged, I.global r.null = some (I.null r.type)) :
    Simulates (I.guardedStep f g) (I.step f') (original g labels merged.toList.length)
      (Matches g bound b labels merged f) := by
  intro x cfg hm
  cases hm
  case entry hl hp hs ha => exact h.answers_entry I ha hl hp hs
  case resumed ha => exact h.answers_resumed I ha
  case ended =>
    rw [guardedStep_of_ne I (by simp), I.step_ended]
    exact I.step_ended ..
  case inside l k kept locals locals' m hl hk hp ha =>
    by_cases hat : l = g.label ∧ k = g.index
    case pos =>
      obtain ⟨rfl, rfl⟩ := hat
      exact h.answers_target I ha hq hmoved hnull
    case neg =>
      refine h.answers_inside I ha hl (fun heq => ?_) hp
      exact Nat.lt_of_le_of_ne (hk heq) fun hke => hat ⟨heq, hke⟩

end
end GuardedBy
end Shader.Execution
