import Shader.Proofs.Instrument.Frame
import Shader.Proofs.Instrument.Loop

namespace Shader

open List

-- The statement `s₀` as a check gets to see it. It is the same, except that a phi may have got
-- other parents from guards before it; these are labels from `bound` on.
def Statement.Shown (bound : Id) (s₀ s : Statement) : Prop :=
  s = s₀ ∨ s₀.is .phi ∧ ∃ operands, Renewed bound s₀.operands operands
    ∧ s = { s₀ with operands := operands }

namespace Statement.Shown

variable {bound : Id} {s s' s'' : Statement}

theorem refl (s : Statement) : s.Shown bound s :=
  .inl rfl

theorem trans (h : s.Shown bound s') (h' : s'.Shown bound s'') : s.Shown bound s'' := by
  obtain rfl | ⟨hp, operands, hr, rfl⟩ := h
  case inl => exact h'
  case inr =>
    obtain rfl | ⟨_, operands', hr', rfl⟩ := h'
    case inl => exact .inr ⟨hp, operands, hr, rfl⟩
    case inr => exact .inr ⟨hp, operands', hr.trans hr', rfl⟩

theorem of_reparented {old new : Id} (h : s.Reparented old new s') (hb : bound ≤ new) :
    s.Shown bound s' := by
  obtain rfl | ⟨hp, rfl⟩ := h
  case inl => exact .refl s'
  case inr => exact .inr ⟨hp, _, .replaceParents old hb s.operands, rfl⟩

end Statement.Shown

namespace Draft

variable {d d' : Draft} {p : Position} {b : Block} {t : Statement}

def upcoming (d : Draft) (p : Position) : List Statement :=
  ((d.functions[p.function]?).elim [] (fun f => ahead f.blocks p.block p.index)
    ++ (d.functions.drop (p.function + 1)).flatMap (code ·.blocks)).filter (·.origin.isSome)

theorem upcoming_function (d : Draft) (function : Nat) : d.upcoming ⟨function, 0, 0⟩
    = ((d.functions.drop function).flatMap (code ·.blocks)).filter (·.origin.isSome) := by
  unfold upcoming
  cases hf : d.functions[function]?
  case none =>
    have hle := getElem?_eq_none_iff.mp hf
    simp [drop_of_length_le hle, drop_of_length_le (Nat.le_succ_of_le hle)]
  case some f => simp [drop_eq_cons_of_getElem? hf, ahead_start]

theorem upcoming_start (d : Draft) :
    d.upcoming ⟨0, 0, 0⟩ = d.functions.flatMap FunctionDraft.originals := by
  rw [upcoming_function, drop_zero, filter_flatMap]
  rfl

theorem upcoming_end (h : d.functions.length ≤ p.function) : d.upcoming p = [] := by
  simp [upcoming, getElem?_eq_none_iff.mpr h, drop_of_length_le (Nat.le_succ_of_le h)]

theorem upcoming_leave (h : d.block? p = none) :
    d.upcoming ⟨p.function + 1, 0, 0⟩ = d.upcoming p := by
  rw [upcoming_function, upcoming]
  cases hf : d.functions[p.function]?
  case none => simp
  case some f =>
    have hle : f.blocks.length ≤ p.block := by simpa [block?, hf] using h
    simp [ahead_of_length_le hle]

theorem upcoming_block (hb : d.block? p = some b) (hn : b.body[p.index]? = none) :
    d.upcoming ⟨p.function, p.block + 1, 0⟩ = d.upcoming p := by
  obtain ⟨f, hf, hb⟩ := Option.bind_eq_some_iff.mp hb
  simp [upcoming, hf, ahead_block hb (getElem?_eq_none_iff.mp hn)]

theorem upcoming_eq (hb : d.block? p = some b) (ht : b.body[p.index]? = some t) :
    d.upcoming p = [t].filter (·.origin.isSome) ++ d.upcoming { p with index := p.index + 1 } := by
  obtain ⟨f, hf, hb⟩ := Option.bind_eq_some_iff.mp hb
  simp [upcoming, hf, ahead_cons hb ht, ← filter_append]

theorem upcoming_after {e : Edit} {bound : Id} (h : e.Turns d p b t d') (hb : bound ≤ e.parent) :
    Forall₂ (Statement.Shown bound) (d.upcoming { p with index := p.index + 1 })
      (d'.upcoming (e.after p)) := by
  obtain ⟨f, f', hf, ha, hset⟩ := h.functions
  have hlt := (List.getElem?_eq_some_iff.mp hf).1
  have hf' : d'.functions[p.function]? = some f' := by rw [hset, getElem?_set_self hlt]
  have hrest : d'.functions.drop (p.function + 1) = d.functions.drop (p.function + 1) := by
    rw [hset, drop_set_of_lt (Nat.lt_succ_self _)]
  have hahead : Forall₂ (Statement.Shown bound) (ahead f.blocks p.block (p.index + 1))
      (ahead f'.blocks (p.block + (e.next p.index).1) (e.next p.index).2) :=
    ha.ahead_eq.imp fun _ _ hr => .of_reparented hr hb
  have horigin (s s' : Statement) (hs : s.Shown bound s') : s.origin.isSome ↔ s'.origin.isSome := by
    obtain rfl | ⟨_, _, _, rfl⟩ := hs <;> rfl
  simp only [upcoming, hf, Edit.after, hf', Option.elim_some, hrest]
  refine rel_filter (fun s s' hs => horigin s s' hs) (rel_append hahead ?_)
  exact forall₂_same.mpr fun s _ => .refl s

end Draft

theorem Edit.parent_mem_ids (e : Edit) : e.parent ∈ e.ids := by
  unfold parent ids
  cases e.guard
  case none => simp
  case some g => simp [GuardLabels.toList]

namespace Check

variable {c : Check} {limit : Option Nat} {functions : Nat} {wants : Statement → Prop}
  {tests : Workspace → Statement → Edit → Prop} {g g' : Progress} {visits : List Visit} {bound : Id}

def Progress.upcoming (g : Progress) : List Statement :=
  g.workspace.draft.upcoming g.position

theorem Moved.shown (hc : c.Treats wants tests) (h : c.Moved limit g visits g')
    (hb : bound ≤ g.workspace.draft.bound) :
    Forall₂ (Statement.Shown bound) g.upcoming (visits.map Visit.statement ++ g'.upcoming) := by
  have hsame {ss ss' : List Statement} (heq : ss' = ss) : Forall₂ (Statement.Shown bound) ss ss' :=
    heq ▸ forall₂_same.mpr fun s _ => .refl s
  cases h
  case function hn => exact hsame (Draft.upcoming_leave hn)
  case block hblock hn => exact hsame (Draft.upcoming_block hblock hn)
  case added hblock ht ho =>
    refine hsame ?_
    rw [Progress.upcoming, Progress.upcoming, Draft.upcoming_eq hblock ht]
    simp [ho]
  case visited w p n b t next w' hblock ht ho hl hvisit =>
    rw [Progress.upcoming, Progress.upcoming, Draft.upcoming_eq hblock ht,
      filter_cons_of_pos (p := fun s : Statement => s.origin.isSome) ho]
    refine .cons (.refl t) ?_
    cases (hc w p b t hblock ht).ok hvisit
    case passed _ hd _ =>
      refine hsame ?_
      rw [hd]
      rfl
    case edited e hturn _ hids _ _ =>
      exact Draft.upcoming_after hturn (UInt32.le_trans hb (hids _ e.parent_mem_ids).left)

theorem Moved.keeps (hc : c.Treats wants tests) (h : c.Moved limit g visits g') :
    g.workspace.draft.bound ≤ g'.workspace.draft.bound
      ∧ g'.workspace.draft.functions.length = g.workspace.draft.functions.length := by
  cases h
  case visited w p n b t next w' hblock ht ho hl hvisit =>
    cases (hc w p b t hblock ht).ok hvisit
    case passed _ hd _ => exact ⟨hd ▸ UInt32.le_refl _, hd ▸ rfl⟩
    case edited e hturn _ _ _ _ =>
      obtain ⟨f, f', _, _, hset⟩ := hturn.functions
      exact ⟨hturn.bound, by rw [hset, length_set]⟩
  all_goals exact ⟨UInt32.le_refl _, rfl⟩

theorem Goes.shown (hc : c.Treats wants tests) (h : c.Goes limit functions g visits g')
    (hb : bound ≤ g.workspace.draft.bound) :
    Forall₂ (Statement.Shown bound) g.upcoming (visits.map Visit.statement ++ g'.upcoming)
      ∧ g'.workspace.draft.functions.length = g.workspace.draft.functions.length := by
  obtain ⟨_, h⟩ := h
  induction h
  case refl => exact ⟨forall₂_same.mpr fun s _ => .refl s, rfl⟩
  case cons hs _ hi =>
    have hm := (moved_of_turn hs).right
    obtain ⟨hbound, hlength⟩ := hm.keeps hc
    obtain ⟨hshown, hlength'⟩ := hi (UInt32.le_trans hb hbound)
    refine ⟨?_, hlength'.trans hlength⟩
    rw [map_append, append_assoc]
    refine forall₂_trans (fun _ _ _ h h' => h.trans h') (hm.shown hc hb) ?_
    exact rel_append (forall₂_same.mpr fun s _ => .refl s) hshown

end Check

namespace Pipeline

variable {m : Module} {s : Settings} {c : Check}

theorem run_shows_originals (hc : c ∈ checks m s) (hl : s.limit = 0) (w : Workspace)
    (hv : ∀ visits e w', ¬c.Breaks (limit? s) w visits e w') :
    ∃ visits count w', c.Finishes (limit? s) w visits count w' ∧ c.run (limit? s) w = .ok count w'
      ∧ Forall₂ (Statement.Shown w.draft.bound) (w.draft.functions.flatMap FunctionDraft.originals)
        (visits.map Check.Visit.statement) := by
  obtain ⟨_, _, ht⟩ := checks_treat m s c hc
  rw [limit?_eq_none hl] at hv ⊢
  have hrun := Check.run_leads_finishes ht.advances none w
  cases heq : c.run none w
  case error e w' =>
    obtain ⟨visits, e, hbreaks⟩ := hrun.error heq
    exact absurd hbreaks (hv visits e w')
  case ok count w' =>
    obtain ⟨visits, hfinishes⟩ := hrun.ok heq
    refine ⟨visits, count, w', hfinishes, rfl, ?_⟩
    obtain ⟨p, hgoes, hends⟩ := hfinishes
    obtain ⟨hshown, hlength⟩ := hgoes.shown ht (UInt32.le_refl w.draft.bound)
    have hnone : w'.draft.upcoming p = [] := Draft.upcoming_end (hlength ▸ Check.le_of_ended hends)
    rwa [Check.Progress.upcoming, Check.Progress.upcoming, hnone, append_nil, Check.start,
      Draft.upcoming_start]
      at hshown

-- A function that loads through a physical pointer, and then has a phi whose parent is the block
-- with the load.
def loadsThenMerges : List Word :=
  [0x07230203, 0x00010500, 0, 18, 0,
   0x20013, 1, 0x30021, 2, 1, 0x40015, 3, 32, 0, 0x40020, 4, 5349, 3, 0x3002E, 4, 5,
   0x50036, 1, 6, 0, 2, 0x200F8, 7, 0x4003D, 3, 8, 5, 0x200F9, 17,
   0x200F8, 17, 0x500F5, 3, 9, 8, 7, 0x100FD, 0x10038]

-- The phi is shown after the load is guarded and its block is split.
theorem run_shows_originals_loadsThenMerges :
    ∃ p, new loadsThenMerges = .ok p
      ∧ let c := BufferAddress.check p.analysis
        let s : Settings := { bufferAddress := true }
        c ∈ checks p.analysis s ∧ s.limit = 0
          ∧ (∀ visits e w', ¬c.Breaks (limit? s) p.toWorkspace visits e w')
        ∧ (p.draft.functions.flatMap FunctionDraft.originals).map Statement.origin
          = [some 28, some 32, some 36, some 41]
        ∧ ∃ visits count w', c.Finishes (limit? s) p.toWorkspace visits count w'
          ∧ c.run (limit? s) p.toWorkspace = .ok count w'
          ∧ Forall₂ (Statement.Shown p.draft.bound)
            (p.draft.functions.flatMap FunctionDraft.originals)
            (visits.map Check.Visit.statement) := by
  have hrun : ((new loadsThenMerges).map fun p => decide (
      (p.step ((BufferAddress.check p.analysis).run none)).1 = .ok 1
      ∧ (p.draft.functions.flatMap FunctionDraft.originals).map Statement.origin
        = [some 28, some 32, some 36, some 41])) = .ok true := by
    decide +kernel
  obtain ⟨p, h, hcount, horigins⟩ := exists_ok_of_decide hrun
  have hc : BufferAddress.check p.analysis ∈ checks p.analysis { bufferAddress := true } :=
    mem_singleton_self _
  have hok := step_ok Leads.self hcount
  obtain ⟨visits, hfinishes⟩ :=
    (Check.run_eq_ok_iff (BufferAddress.visit_treats p.analysis).advances).mp hok
  have hv (visits' e w') : ¬(BufferAddress.check p.analysis).Breaks none p.toWorkspace
      visits' e w' :=
    hfinishes.not_breaks
  exact ⟨p, h, hc, rfl, hv, horigins, run_shows_originals hc rfl p.toWorkspace hv⟩

end Pipeline
end Shader
