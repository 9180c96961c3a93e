import Shader.Proofs.Access.Finds
import Shader.Proofs.Access.Walk

namespace Shader

open List Relation

namespace Outline

inductive DeadEnd (o : Outline) (a : Id) : Prop
  | undefined : o.definition? a = none → DeadEnd o a
  | unsupported {op} : o.opOf? a = some op → op ≠ .variable → op ≠ .functionParameter →
    op.walkOperands = [] →
    DeadEnd o a
  | uncalled : o.opOf? a = some .functionParameter → (∀ b, ¬o.Passed a b) → DeadEnd o a

-- No path ends here without a variable, and no path from here comes back to the same parameter.
structure Sound (o : Outline) (a : Id) : Prop where
  live      : ¬o.DeadEnd a
  noReturns : o.opOf? a = some .functionParameter → ¬TransGen o.Leads a a

theorem not_sound_iff {o : Outline} {a : Id} : ¬o.Sound a ↔ o.DeadEnd a
    ∨ o.opOf? a = some .functionParameter ∧ TransGen o.Leads a a := by
  constructor
  case mp =>
    intro hs
    by_contra hnot
    obtain ⟨hlive, hreturn⟩ := not_or.mp hnot
    exact hs ⟨hlive, fun ho ht => hreturn ⟨ho, ht⟩⟩
  case mpr =>
    rintro (hdead | ⟨ho, ht⟩) hs
    · exact hs.live hdead
    · exact hs.noReturns ho ht

def hits (o : Outline) (start : WalkPoint) (branch : Branch) : Set (Id × ArrayIndex) :=
  {x | ∃ q, ReflTransGen o.Walks start q ∧ o.opOf? q.id = some .variable ∧ q.branch = branch
    ∧ x = (q.id, q.element)}

end Outline

namespace Walk

variable {o : Outline} {start : WalkPoint} {w w' w'' : Walk} {p q : WalkPoint} {ids ids' : Set Id}
  {points points' : Set WalkPoint} {b : Id}

-- What is known of the parameters that are finished, as long as the walk is valid.
structure Settled (w : Walk) (o : Outline) : Prop where
  sound : w.valid → ∀ p ∈ w.finished, ∀ b, ReflTransGen o.Leads p.id b → o.Sound b
  found : w.valid → o.Unshared → ∀ p ∈ w.finished, ∀ q, ReflTransGen o.Walks p q →
    o.opOf? q.id = some .variable → w.Has q

-- What a part of the walk does that has to look at `ids` and has to find the variables among
-- `points`.
structure Does (w : Walk) (o : Outline) (start : WalkPoint) (w' : Walk) (ids : Set Id)
    (points : Set WalkPoint) : Prop where
  active  : w'.active = w.active
  settled : w'.Settled o
  within  : ∀ branch, (w.finds branch).Within (o.hits start branch) →
    (w'.finds branch).Within (o.hits start branch)
  keeps   : ∀ q, w.Has q → w'.Has q
  valid   : w'.valid ↔ w.valid ∧ ∀ b ∈ ids, o.Sound b ∧ b ∉ w.active
  found   : w'.valid → o.Unshared → ∀ q ∈ points, o.opOf? q.id = some .variable → w'.Has q

namespace Does

theorem congr (h : w.Does o start w' ids points) (hi : ∀ b, b ∈ ids' ↔ b ∈ ids)
    (hp : o.Unshared → points' ⊆ points) : w.Does o start w' ids' points' where
  active  := h.active
  settled := h.settled
  within  := h.within
  keeps   := h.keeps
  valid   := by simp only [hi, h.valid]
  found   := fun hv hu q hq => h.found hv hu q (hp hu hq)

theorem rest (hs : w.Settled o) (hi : w.valid → ∀ b ∈ ids, o.Sound b ∧ b ∉ w.active)
    (hp : w.valid → o.Unshared → ∀ q ∈ points, o.opOf? q.id = some .variable → w.Has q) :
    w.Does o start w ids points where
  active  := rfl
  settled := hs
  within  := fun _ => id
  keeps   := fun _ => id
  valid   := ⟨fun hv => ⟨hv, hi hv⟩, And.left⟩
  found   := hp

theorem trans (h : w.Does o start w' ids points) (h' : w'.Does o start w'' ids' points') :
    w.Does o start w'' (ids ∪ ids') (points ∪ points') where
  active  := h'.active.trans h.active
  settled := h'.settled
  within  := fun branch => h'.within branch ∘ h.within branch
  keeps   := fun q => h'.keeps q ∘ h.keeps q
  valid   := by
    rw [h'.valid, h.valid, h.active, and_assoc]
    refine and_congr_right fun _ => ⟨fun ⟨hi, hi'⟩ b hb => hb.elim (hi b) (hi' b),
      fun hall => ⟨?_, ?_⟩⟩
    · exact fun b hb => hall b (.inl hb)
    · exact fun b hb => hall b (.inr hb)
  found   := by
    intro hv hu q hq ho
    obtain hq | hq := hq
    · exact h'.keeps q (h.found (h'.valid.mp hv).left hu q hq ho)
    · exact h'.found hv hu q hq ho

theorem foldlM {α : Type} {l : List α} {f : Walk → α → Checked Walk} {ids : α → Set Id}
    {points : α → Set WalkPoint} {active : List Id}
    (hf : ∀ x ∈ l, ∀ w w', w.active = active → w.Settled o → f w x = .ok w' →
      w.Does o start w' (ids x) (points x))
    (ha : w.active = active) (hs : w.Settled o) (h : l.foldlM f w = .ok w') :
    w.Does o start w' {b | ∃ x ∈ l, b ∈ ids x} {q | ∃ x ∈ l, q ∈ points x} := by
  induction l generalizing w
  case nil =>
    cases h
    exact .rest hs (by simp) (by simp)
  case cons x l hi =>
    rw [foldlM_cons] at h
    obtain ⟨w₁, h₁, h⟩ := ok_of_bind h
    rw [forall_mem_cons] at hf
    have hx := hf.left w w₁ ha hs h₁
    have hl := hi hf.right (hx.active.trans ha) hx.settled h
    exact (hx.trans hl).congr (by simp) fun _ => by simp [Set.subset_def]

theorem fail (ha : w'.active = w.active) (hf : w'.finds = w.finds) (hv : w'.valid = false)
    (hb : b ∈ ids) (hbad : ¬(o.Sound b ∧ b ∉ w.active)) : w.Does o start w' ids points where
  active  := ha
  settled := by constructor <;> simp [hv]
  within  := by simp [hf]
  keeps   := by simp [Has, hf]
  valid   := by simpa [hv] using fun _ => ⟨b, hb, by simpa using hbad⟩
  found   := by simp [hv]

theorem resolves (h : Does {} o start w ids {q | ReflTransGen o.Walks start q}) (hv : w.valid)
    (hu : o.Unshared) (branch : Branch) : (w.finds branch).Resolves (o.hits start branch) := by
  have hempty : (({} : Walk).finds branch).Within (o.hits start branch) := by
    cases branch <;> exact .empty
  refine (h.within branch hempty).resolves ?_
  rintro _ ⟨q, hq, ho, rfl, rfl⟩
  exact h.found hv hu q hq ho

end Does
end Walk

namespace Outline

variable {o : Outline} {start : WalkPoint} {w w' : Walk} {p q : WalkPoint} {nesting : Nat}
  {active : List Id} {a b : Id}

theorem IsRead.definition?_of_opOf?_none (h : o.IsRead) (ho : o.opOf? a = none) :
    o.definition? a = none := by
  cases hd : o.definition? a
  case none => rfl
  case some i =>
    have hid := (h.indexed.definition?_eq_some_iff.mp hd).right
    have hop : i.op? = none := by simpa [Binary.opOf?, hd] using ho
    simp [Instruction.resultId?, Instruction.outcome, hop] at hid

theorem not_passed (h : o.IsRead) (ho : o.opOf? a ≠ some .functionParameter) : ¬o.Passed a b :=
  fun ⟨_, _, hp⟩ => ho (h.opOf?_of_passes hp)

theorem sound_of_not_parameter {op : Op} (ho : o.opOf? a = some op) (hp : op ≠ .functionParameter)
    (hv : op = .variable ∨ op.walkOperands ≠ []) : o.Sound a where
  live      := by
    intro hdead
    cases hdead
    case undefined hd => simp [Binary.opOf?, hd] at ho
    case unsupported op' ho' hv' _ hnil =>
      cases ho.symm.trans ho'
      exact hv.elim hv' (absurd hnil)
    case uncalled ho' _ => exact hp (Option.some.inj (ho.symm.trans ho'))
  noReturns := fun ho' => absurd (Option.some.inj (ho.symm.trans ho')) hp

-- How a walk came to `p`. Every active parameter leads to `p`, and `nesting` is enough for all
-- others.
structure Context (o : Outline) (start : WalkPoint) (nesting : Nat) (active : List Id)
    (p : WalkPoint) : Prop where
  nodup      : active.Nodup
  parameters : ∀ a ∈ active, o.opOf? a = some .functionParameter
  room       : active.length + nesting = o.parameterCount + 1
  path       : ∀ a ∈ active, TransGen o.Leads a p.id
  reached    : ReflTransGen o.Walks start p

namespace Context

theorem init (start : WalkPoint) : o.Context start (o.parameterCount + 1) [] start :=
  ⟨nodup_nil, by simp, by simp, by simp, .refl⟩

theorem length_le (h : o.IsRead) (hc : o.Context start nesting active p) :
    active.length ≤ o.parameterCount := by
  have hsub : active.toFinset ⊆ o.parameterIds := fun a ha =>
    h.mem_parameterIds (hc.parameters a (mem_toFinset.mp ha))
  rw [← toFinset_card_of_nodup hc.nodup]
  exact (Finset.card_le_card hsub).trans o.card_parameterIds_le

theorem follow (hc : o.Context start nesting active p)
    (hq : ReflTransGen (fun p q => ∃ k, o.Steps p k q) p q) : o.Context start nesting active q where
  nodup      := hc.nodup
  parameters := hc.parameters
  room       := hc.room
  path       := fun a ha => (hc.path a ha).trans_left (hq.lift WalkPoint.id fun _ _ ⟨k, hk⟩ =>
    .inl ⟨k, hk.operand⟩)
  reached    := hc.reached.trans (hq.lift id fun _ _ => .inl)

theorem enter (hc : o.Context start (nesting + 1) active p)
    (hp : o.opOf? p.id = some .functionParameter) (hnew : p.id ∉ active) (hx : o.Passed p.id a) :
    o.Context start nesting (p.id :: active) ⟨a, p.branch, p.index⟩ where
  nodup      := nodup_cons.mpr ⟨hnew, hc.nodup⟩
  parameters := forall_mem_cons.mpr ⟨hp, hc.parameters⟩
  room       := by
    have := hc.room
    simp only [length_cons]
    omega
  path       := by
    have hstep : o.Leads p.id a := .inr hx
    exact forall_mem_cons.mpr ⟨.single hstep, fun c hcm => (hc.path c hcm).tail hstep⟩
  reached    := hc.reached.tail (.inr ⟨hx, rfl, rfl⟩)

end Context

theorem sound_beyond_iff (ho : o.opOf? a = some .functionParameter) (hnew : a ∉ active)
    (hx : ∃ x, o.Passed a x) : (∀ b ∈ o.idsBeyond a, o.Sound b ∧ b ∉ active)
      ↔ ∀ x, o.Passed a x → ∀ b, ReflTransGen o.Leads x b → o.Sound b ∧ b ∉ a :: active := by
  constructor
  case mp =>
    intro hall x hp b hb
    obtain ⟨hsound, hactive⟩ := hall b (.inr ⟨x, hp, hb⟩)
    refine ⟨hsound, fun hm => ?_⟩
    obtain rfl | hm := mem_cons.mp hm
    · exact hsound.noReturns ho (.head' (.inr hp) hb)
    · exact hactive hm
  case mpr =>
    rintro hall b (rfl | ⟨x, hp, hb⟩)
    · refine ⟨⟨fun hdead => ?_, fun _ hreturn => ?_⟩, hnew⟩
      · obtain ⟨x, hp⟩ := hx
        cases hdead
        case undefined hd => simp [Binary.opOf?, hd] at ho
        case unsupported ho' _ hne _ => exact hne (Option.some.inj (ho'.symm.trans ho))
        case uncalled hn => exact hn x hp
      · obtain ⟨x, hd, hb⟩ := TransGen.head'_iff.mp hreturn
        obtain ⟨k, hk⟩ | hp := hd
        · exact not_operand_of_parameter ho hk
        · exact (hall x hp b hb).right mem_cons_self
    · obtain ⟨hsound, hactive⟩ := hall x hp b hb
      exact ⟨hsound, fun hm => hactive (mem_cons_of_mem a hm)⟩

theorem visitParameter_finished (hc : o.Context start nesting w.active p) (hs : w.Settled o)
    (hp : o.opOf? p.id = some .functionParameter) (hf : p ∈ w.finished) :
    w.Does o start w (o.idsBeyond p.id) (o.pointsBeyond p) := by
  refine .rest hs (fun hv b hb => ?_) fun hv hu q hq =>
    hs.found hv hu p hf q ((parameter_walks_iff hp).mpr hq)
  have hlead := (parameter_leads_iff hp).mpr hb
  have hsound := hs.sound hv p hf b hlead
  -- An active parameter leads to `p`, so if it came after `p` too, it would lead back to itself.
  exact ⟨hsound, fun ha => hsound.noReturns (hc.parameters b ha) ((hc.path b ha).trans_left hlead)⟩

theorem visitParameter_entered {left : Walk} (hp : o.opOf? p.id = some .functionParameter)
    (hnew : p.id ∉ w.active) (hx : ∃ x, o.Passed p.id x)
    (hl : Walk.Does { w with active := p.id :: w.active } o start left
      {b | ∃ x, o.Passed p.id x ∧ ReflTransGen o.Leads x b}
      {q | ∃ x, o.Passed p.id x ∧ ReflTransGen o.Walks ⟨x, p.branch, p.index⟩ q}) :
    w.Does o start { left with active := left.active.erase p.id, finished := p :: left.finished }
      (o.idsBeyond p.id) (o.pointsBeyond p) := by
  -- Beyond a parameter lie itself and all that lies beyond its arguments.
  have hvalid : left.valid ↔ w.valid ∧ ∀ b ∈ o.idsBeyond p.id, o.Sound b ∧ b ∉ w.active := by
    rw [hl.valid, sound_beyond_iff hp hnew hx]
    exact and_congr_right fun _ => ⟨fun hall x hp b hb => hall b ⟨x, hp, hb⟩,
      fun hall b ⟨x, hp, hb⟩ => hall x hp b hb⟩
  have hfound (hv : left.valid) (hu : o.Unshared) {q : WalkPoint} (hq : q ∈ o.pointsBeyond p)
      (ho : o.opOf? q.id = some .variable) : left.Has q := by
    obtain rfl | hq := hq
    · cases hp.symm.trans ho
    · exact hl.found hv hu q hq ho
  constructor
  case active =>
    show left.active.erase p.id = w.active
    rw [hl.active]
    exact erase_cons_head _ _
  case settled =>
    constructor
    case sound =>
      intro hv
      refine forall_mem_cons.mpr ⟨fun b hb => ?_, hl.settled.sound hv⟩
      exact ((hvalid.mp hv).right b ((parameter_leads_iff hp).mp hb)).left
    case found =>
      intro hv hu
      refine forall_mem_cons.mpr ⟨fun q hq => ?_, hl.settled.found hv hu⟩
      exact hfound hv hu ((parameter_walks_iff hp).mp hq)
  case within => exact hl.within
  case keeps => exact hl.keeps
  case valid => exact hvalid
  case found => exact fun hv hu q hq => hfound hv hu hq

theorem visitParameter_does (h : o.IsRead) {walk : Walk → WalkPoint → Checked Walk}
    (hw : ∀ w w' p, o.Context start nesting w.active p → w.Settled o → walk w p = .ok w' →
      w.Does o start w' {b | ReflTransGen o.Leads p.id b} {q | ReflTransGen o.Walks p q})
    (hc : o.Context start (nesting + 1) w.active p) (hs : w.Settled o)
    (hp : o.opOf? p.id = some .functionParameter) (hv : o.visitParameter walk w p = .ok w') :
    w.Does o start w' (o.idsBeyond p.id) (o.pointsBeyond p) := by
  have hpassed {x : Id} : x ∈ o.argumentsOf p.id ↔ o.Passed p.id x := h.mem_argumentsOf
  unfold visitParameter at hv
  split at hv
  case isTrue hf =>
    cases hv
    exact visitParameter_finished hc hs hp (contains_iff_mem.mp hf)
  case isFalse =>
    split at hv
    -- The parameter is being resolved already: its function calls itself.
    case isTrue ha =>
      cases hv
      exact .fail rfl rfl rfl (.inl rfl) fun hgood => hgood.right (contains_iff_mem.mp ha)
    case isFalse ha =>
      rw [contains_iff_mem] at ha
      obtain ⟨left, hleft, hv⟩ := ok_of_bind hv
      cases hv
      -- A parameter that nothing is passed to is a dead end.
      by_cases hargs : o.argumentsOf p.id = []
      case pos =>
        rw [hargs] at hleft
        cases hleft
        refine .fail (erase_cons_head _ _) rfl rfl (.inl rfl) fun hgood => hgood.left.live ?_
        exact .uncalled hp fun x hx => by simpa [hargs] using hpassed.mpr hx
      case neg =>
        obtain ⟨x, hx⟩ := exists_mem_of_ne_nil _ hargs
        refine visitParameter_entered hp ha ⟨x, hpassed.mp hx⟩ ?_
        have hstep (x : Id) (hx : x ∈ o.argumentsOf p.id) (w₁ w₂ : Walk)
            (hactive : w₁.active = p.id :: w.active)
            (hs₁ : w₁.Settled o) (h₁ : walk w₁ ⟨x, p.branch, p.index⟩ = .ok w₂) :
            w₁.Does o start w₂ {b | ReflTransGen o.Leads x b}
              {q | ReflTransGen o.Walks ⟨x, p.branch, p.index⟩ q} := by
          refine hw w₁ w₂ _ ?_ hs₁ h₁
          rw [hactive]
          exact hc.enter hp ha (hpassed.mp hx)
        have hentered : Walk.Settled { w with active := p.id :: w.active } o := ⟨hs.sound, hs.found⟩
        rw [if_neg (by simpa using hargs)] at hleft
        exact (Walk.Does.foldlM hstep rfl hentered hleft).congr (by simp [hpassed])
          (by simp [hpassed])

theorem IsRead.sound_of_mem_idsBeyond (h : o.IsRead) {op : Op} (ho : o.opOf? a = some op)
    (hp : op ≠ .functionParameter) (hv : op = .variable ∨ op.walkOperands ≠ [])
    (hactive : ∀ c ∈ active, o.opOf? c = some .functionParameter) (hb : b ∈ o.idsBeyond a) :
    o.Sound b ∧ b ∉ active := by
  obtain rfl | ⟨c, hc, _⟩ := hb
  · refine ⟨sound_of_not_parameter ho hp hv, fun hm => hp ?_⟩
    exact Option.some.inj (ho.symm.trans (hactive b hm))
  · exact absurd hc (not_passed h (by simp [ho, hp]))

theorem visit_passed (h : o.IsRead) (hc : o.Context start nesting w.active p) (hs : w.Settled o)
    {op : Op} (ho : o.opOf? p.id = some op) (hp : op ≠ .functionParameter) (hv : op ≠ .variable)
    (hn : op.walkOperands ≠ []) :
    w.Does o start w (o.idsBeyond p.id) (o.pointsBeyond p) := by
  refine .rest hs (fun _ _ => h.sound_of_mem_idsBeyond ho hp (.inr hn) hc.parameters) ?_
  rintro _ _ q (rfl | ⟨c, hx, _⟩) hq
  · exact absurd (Option.some.inj (ho.symm.trans hq)) hv
  · exact absurd hx (not_passed h (by simp [ho, hp]))

theorem visit_recorded (h : o.IsRead) (hc : o.Context start nesting w.active p) (hs : w.Settled o)
    (ho : o.opOf? p.id = some .variable) :
    w.Does o start (w.record p) (o.idsBeyond p.id) (o.pointsBeyond p) where
  active  := Walk.active_record
  settled := by
    constructor
    case sound =>
      rw [Walk.valid_record, Walk.finished_record]
      exact hs.sound
    case found =>
      rw [Walk.valid_record, Walk.finished_record]
      exact fun hv hu p hp q hq hvar => (hs.found hv hu p hp q hq hvar).record
  within  := by
    intro branch hw
    rw [Walk.finds_record]
    split
    case isTrue hb => exact hw.add ⟨p, hc.reached, ho, hb.symm, rfl⟩
    case isFalse => exact hw
  keeps   := fun _ => Walk.Has.record
  valid   := by
    rw [Walk.valid_record]
    exact ⟨fun hvalid => ⟨hvalid, fun _ => h.sound_of_mem_idsBeyond ho (by decide) (.inl rfl)
      hc.parameters⟩, And.left⟩
  found   := by
    rintro _ _ q (rfl | ⟨c, hx, _⟩) _
    · exact Walk.has_record
    · exact absurd hx (not_passed h (by simp [ho]))

theorem visit_does (h : o.IsRead) {walk : Walk → WalkPoint → Checked Walk}
    (hw : ∀ w w' p, o.Context start nesting w.active p → w.Settled o → walk w p = .ok w' →
      w.Does o start w' {b | ReflTransGen o.Leads p.id b} {q | ReflTransGen o.Walks p q})
    (hc : o.Context start (nesting + 1) w.active p) (hs : w.Settled o)
    (hv : o.visit walk w p = .ok w') :
    w.Does o start w' (o.idsBeyond p.id) (o.pointsBeyond p) := by
  unfold visit at hv
  split at hv
  case h_1 ho =>
    cases hv
    exact .fail rfl rfl rfl (.inl rfl) fun hgood =>
      hgood.left.live (.undefined (h.definition?_of_opOf?_none ho))
  case h_2 op ho =>
    split at hv
    case h_1 =>
      cases hv
      exact visit_recorded h hc hs ho
    case h_2 => exact visitParameter_does h hw hc hs ho hv
    case h_3 | h_4 | h_5 | h_6 | h_7 =>
      cases hv
      exact visit_passed h hc hs ho (by decide) (by decide) (by decide)
    case h_8 hvar hpar hsampled himage hload hcopy hlogical =>
      cases hv
      split
      case isTrue ha =>
        exact visit_passed h hc hs ho hpar hvar (by simp [Op.walkOperands_of_isAccessChain ha])
      case isFalse ha =>
        refine .fail rfl rfl rfl (.inl rfl) fun hgood =>
          hgood.left.live (.unsupported ho hvar hpar ?_)
        simp_all [Op.walkOperands_eq_nil_iff, Op.handsOn_iff]

theorem walk_does (h : o.IsRead) (hc : o.Context start nesting w.active p) (hs : w.Settled o)
    (hv : o.walk nesting w p = .ok w') : w.Does o start w'
      {b | ReflTransGen o.Leads p.id b} {q | ReflTransGen o.Walks p q} := by
  induction nesting generalizing w w' p
  case zero =>
    have hroom := hc.room
    have hlength := hc.length_le h
    omega
  case succ nesting hi =>
    obtain ⟨points, hp, hv⟩ := ok_of_bind hv
    have hmeets := h.meets_of_checkedSearch hp
    have hvisit (q : WalkPoint) (hq : q ∈ points) (w₁ w₂ : Walk) (hactive : w₁.active = w.active)
        (hs₁ : w₁.Settled o)
        (h₁ : o.visit (o.walk nesting) w₁ q = .ok w₂) : w₁.Does o start w₂ (o.idsBeyond q.id)
          (o.pointsBeyond q) := by
      refine visit_does h (fun _ _ _ => hi) ?_ hs₁ h₁
      rw [hactive]
      exact hc.follow (hmeets.steps q hq)
    refine (Walk.Does.foldlM hvisit rfl hs hv).congr (fun b => ?_) fun hu r hr => ?_
    · constructor
      case mp =>
        intro hb
        obtain ⟨c, hc, hb⟩ := leads_iff.mp hb
        obtain ⟨q, hq, rfl⟩ := hmeets.ids c hc
        exact ⟨q, hq, hb⟩
      case mpr =>
        rintro ⟨q, hq, hb⟩
        refine leads_iff.mpr ⟨q.id, ?_, hb⟩
        exact (hmeets.steps q hq).lift WalkPoint.id fun _ _ ⟨k, hk⟩ => ⟨k, hk.operand⟩
    · obtain ⟨q, hq, hr⟩ := walks_iff.mp hr
      exact ⟨q, hmeets.complete hu q hq, hr⟩

theorem IsRead.mem_imageInstructions (h : o.IsRead) {i : Instruction}
    (hi : i ∈ o.instructions.toList) {op : Op} {k : Nat} (ho : i.op? = some op)
    (hk : op.imagePosition? = some k) : i ∈ o.imageInstructions := by
  obtain ⟨_, hsorts⟩ := of_ofBinary h.outline
  rw [hsorts.images]
  exact mem_filter.mpr ⟨hi, by simp [ho, hk]⟩

theorem of_imageAccess? (h : o.IsRead) {i : Instruction} (hi : i ∈ o.instructions.toList) {op : Op}
    {k : Nat} {x : Id} (ho : i.op? = some op) (hk : op.imagePosition? = some k)
    (hx : i.word? k = some x) :
    ∃ a w, o.walk (o.parameterCount + 1) {} ⟨x, .image, none⟩ = .ok w
      ∧ o.imageAccess? i = .ok (some a)
      ∧ a.image = w.image ∧ a.sampler = w.sampler ∧ a.valid = w.valid := by
  obtain ⟨found, hfound⟩ := imageAccess?_succeeds h.indexed.framed hi
  have hopen := hfound
  simp only [imageAccess?, ho, hk, hx, Option.bind_some] at hopen
  obtain ⟨w, hw, hopen⟩ := ok_of_bind hopen
  split at hopen
  case isTrue =>
    obtain ⟨texel, _, hopen⟩ := ok_of_bind hopen
    obtain ⟨_, _, hopen⟩ := ok_of_bind hopen
    cases hopen
    exact ⟨_, w, hw, hfound, rfl, rfl, rfl⟩
  case isFalse =>
    obtain ⟨_, _, hopen⟩ := ok_of_bind hopen
    cases hopen
    exact ⟨_, w, hw, hfound, rfl, rfl, rfl⟩

end Outline

namespace Module

variable {words : List Word} {m : Module} {i : Instruction} {op : Op} {k : Nat} {x : Id}

-- An image access is valid unless some path from its image comes to a dead end or back to a
-- parameter. If it is valid, what was found on each branch is exactly what paths lead to.
theorem imageAccess_resolves (h : ofWords words = .ok m) (hi : i ∈ m.instructions.toList)
    (ho : i.op? = some op) (hk : op.imagePosition? = some k) (hx : i.word? k = some x) :
    ∃ a ∈ m.images, m.imageAccess? i = .ok (some a)
      ∧ (a.valid = false ↔ ∃ q, ReflTransGen m.Walks ⟨x, .image, none⟩ q ∧ (m.DeadEnd q.id
        ∨ m.opOf? q.id = some .functionParameter ∧ ∃ r, TransGen m.Walks q r ∧ r.id = q.id))
      ∧ (a.valid → m.Unshared → a.image.Resolves (m.hits ⟨x, .image, none⟩ .image)
        ∧ a.sampler.Resolves (m.hits ⟨x, .image, none⟩ .sampler)) := by
  have hm := isAnalysed_of_ofWords h
  have hr := hm.toIsRead
  obtain ⟨a, w, hw, ha, himage, hsampler, hvalid⟩ := Outline.of_imageAccess? hr hi ho hk hx
  have hdoes := Outline.walk_does hr (.init _) ⟨by simp, by simp⟩ hw
  refine ⟨a, (mem_of_filterMapM hm.images).mpr ⟨i, hr.mem_imageInstructions hi ho hk, ha⟩, ha,
    ?_, fun hv hu => ?_⟩
  case refine_1 =>
    calc a.valid = false
      _ ↔ ∃ b, ReflTransGen m.Leads x b ∧ ¬m.Sound b := by
        rw [hvalid, ← Bool.not_eq_true, hdoes.valid]
        simp
      _ ↔ ∃ q, ReflTransGen m.Walks ⟨x, .image, none⟩ q ∧ ¬m.Sound q.id := by
        simp only [← Outline.exists_walks_iff (p := ⟨x, .image, none⟩)]
        exact ⟨fun ⟨_, ⟨q, hq, hid⟩, hs⟩ => ⟨q, hq, hid ▸ hs⟩, fun ⟨q, hq, hs⟩ =>
          ⟨q.id, ⟨q, hq, rfl⟩, hs⟩⟩
      _ ↔ _ := by simp only [Outline.not_sound_iff, Outline.exists_transGen_walks_iff]
  case refine_2 =>
    rw [himage, hsampler]
    exact ⟨hdoes.resolves (hvalid ▸ hv) hu .image, hdoes.resolves (hvalid ▸ hv) hu .sampler⟩

-- A function samples an image through two parameters. It is called with two elements of an array of
-- images and with the same sampler.
def samplesThroughParameters : List Word :=
  [Header.magicNumber, 0x00010500, 0, 22, 0, 0x20013, 1, 0x40020, 2, 0, 1, 0x40015, 3, 32, 0,
   0x4002B, 3, 4, 0, 0x4002B, 3, 5, 1, 0x4003B, 2, 6, 0, 0x4003B, 2, 7, 0,
   0x50036, 1, 8, 0, 1, 0x30037, 2, 9, 0x30037, 2, 10, 0x200F8, 11, 0x4003D, 1, 12, 9, 0x4003D,
   1, 13, 10,
   0x50056, 1, 14, 12, 13, 0x50057, 1, 15, 14, 4, 0x100FD, 0x10038,
   0x50036, 1, 16, 0, 1, 0x200F8, 17, 0x50041, 2, 18, 6, 4, 0x60039, 1, 19, 8, 18, 7,
   0x50041, 2, 20, 6, 5, 0x60039, 1, 21, 8, 20, 7, 0x100FD, 0x10038]

theorem imageAccess_resolves_samplesThroughParameters :
    ∃ m, ofWords samplesThroughParameters = .ok m ∧ m.Unshared
      ∧ ∃ a ∈ m.images, a.valid ∧ a.image = ⟨[6], some .unknown⟩ ∧ a.sampler = ⟨[7], some .direct⟩
        ∧ a.image.Resolves (m.hits ⟨14, .image, none⟩ .image)
        ∧ a.sampler.Resolves (m.hits ⟨14, .image, none⟩ .sampler) := by
  have hfacts : ∃ m, ofWords samplesThroughParameters = .ok m
      ∧ m.ids.all (m.endsApart 3)
      ∧ (∃ i ∈ m.instructions.toList, i.op? = some .imageSampleImplicitLod ∧ i.word? 3 = some 14)
      ∧ ∀ a ∈ m.images, a.valid ∧ a.image = ⟨[6], some .unknown⟩
      ∧ a.sampler = ⟨[7], some .direct⟩ :=
    exists_ok_of_decide (by decide +kernel)
  obtain ⟨m, hm, hapart, ⟨i, hi, ho, hx⟩, hfound⟩ := hfacts
  have hu : m.Unshared := Outline.unshared_of_endsApart (isAnalysed_of_ofWords hm).toIsRead 3 hapart
  obtain ⟨a, ha, _, _, hresolves⟩ := imageAccess_resolves hm hi ho rfl hx
  obtain ⟨hv, himage, hsampler⟩ := hfound a ha
  exact ⟨m, hm, hu, a, ha, hv, himage, hsampler, hresolves hv hu⟩

end Module
end Shader
