import Shader.Proofs.Link.Correct

namespace Shader

open List

-- A module of one function, which starts a ray query.
def startsRayQuery : List Word :=
  [0x07230203, 0x00010500, 0, 13, 0,
   0x20013, 1, 0x30021, 2, 1,
   0x50036, 1, 3, 0, 2, 0x200F8, 4, 0x91179, 5, 6, 7, 8, 9, 10, 11, 12, 0x100FD, 0x10038]

namespace Pipeline

variable {base : Opening} {rest : List Definition} {w : Workspace} {p q p₀ : Pipeline}

-- Helpers that were linked may mention ids that nothing defines. Those are held and never placed.
theorem linkHelpers_keeps (library : String → Option (List Word)) (hb : base.Sound)
    (h : w.Tracked base rest) :
    Leads (linkHelpers library) w
      (fun _ w' => ∃ lost : List Id, w'.Tracked base (lost.map (·, none) ++ rest))
      (Workspace.Lost base) := by
  refine .bind <| .get <| .bind <| .modify ?_
  refine Leads.weaken (Leads.forM (fun left w => w.requests = [] ∧ ∃ lost : List Id,
    Ledger base w.draft (left.map (fun r => (r.function, none)) ++ (lost.map (·, none) ++ rest)))
    (fun r left w ⟨hr, lost, h⟩ => ?_) ⟨rfl, [], h⟩) fun _ w ⟨hr, lost, h⟩ => ?_
  case refine_2 => exact ⟨lost, (Workspace.tracked_iff hr).mpr h⟩
  case refine_1 =>
    have hlt := h.lt_bound hb (mem_append_right _ mem_cons_self)
    refine (Instrumenting.linkRequest_leads hlt).mono (fun _ w' hw => ?_) fun w' ⟨hr', ha⟩ => ?_
    · have ⟨hr', words, m, helper, _, _, _, _, s, kept, found, _, _, hl⟩ := hw
      obtain ⟨lost', h'⟩ := hl.ledger h
      refine ⟨hr'.trans hr, lost' ++ lost, h'.perm ?_⟩
      simp only [map_append, append_assoc]
      exact perm_append_comm_assoc ..
    · have ⟨spilled, hs⟩ := ha.spilled base _ h
      exact ⟨_, (Workspace.tracked_iff (hr'.trans hr)).mpr hs⟩

inductive Reached (p₀ : Pipeline) : Pipeline → Prop
  | start : Reached p₀ p₀
  | run {p : Pipeline} (s : Settings) : Reached p₀ p → Reached p₀ (p.run s).2
  | link {p : Pipeline} (library : String → Option (List Word)) : Reached p₀ p →
      Reached p₀ (p.link library).2

inductive Succeeded (p₀ : Pipeline) : Pipeline → Prop
  | start : Succeeded p₀ p₀
  | run {p : Pipeline} {count : Nat} (s : Settings) : Succeeded p₀ p → (p.run s).1 = .ok count →
    Succeeded p₀ (p.run s).2
  | link {p : Pipeline} (library : String → Option (List Word)) : Succeeded p₀ p →
    (p.link library).1 = .ok () → Succeeded p₀ (p.link library).2

theorem step_leads {α : Type} {i : Instrumenting α} {done : α → Workspace → Prop}
    {kept : Workspace → Prop} (h : Leads i p.toWorkspace done kept)
    (hd : ∀ a w, done a w → kept w) : kept (p.step i).2.toWorkspace := by
  unfold step
  split
  case h_1 a w hi => exact hd a w (h.ok hi)
  case h_2 e w hi => exact h.error hi

theorem step_ok {α : Type} {i : Instrumenting α} {a : α} {done : α → Workspace → Prop}
    {failed : Workspace → Prop} (h : Leads i p.toWorkspace done failed)
    (hs : (p.step i).1 = .ok a) :
    done a (p.step i).2.toWorkspace := by
  unfold step at *
  split at hs
  case h_1 hi =>
    cases hs
    exact h.ok hi
  case h_2 => cases hs

theorem step_error {α : Type} {i : Instrumenting α} {e : EditError} {done : α → Workspace → Prop}
    {failed : Workspace → Prop} (h : Leads i p.toWorkspace done failed)
    (hs : (p.step i).1 = .error e) :
    failed (p.step i).2.toWorkspace := by
  unfold step at *
  split at hs
  case h_1 => cases hs
  case h_2 hi => exact h.error hi

theorem Reached.lost (h : Reached p₀ p) (hb : base.Sound) (h₀ : p₀.Lost base) : p.Lost base := by
  induction h
  case start => exact h₀
  case run p s _ hi =>
    have ⟨rest, ht⟩ := hi
    exact step_leads (runChecks_keeps p.analysis s ht) fun _ _ h => ⟨rest, h⟩
  case link library _ hi =>
    have ⟨rest, ht⟩ := hi
    exact step_leads (linkHelpers_keeps library hb ht) fun _ _ ⟨lost, h⟩ => ⟨_, h⟩

theorem Succeeded.tracked (h : Succeeded p₀ p) (hb : base.Sound) (h₀ : p₀.Tracked base []) :
    ∃ lost : List Id, p.Tracked base (lost.map (·, none)) := by
  induction h
  case start => exact ⟨[], h₀⟩
  case run p _ s _ hs hi =>
    have ⟨lost, ht⟩ := hi
    have ht' := step_ok (runChecks_keeps p.analysis s ht) hs
    exact ⟨lost, ht'⟩
  case link library _ hs hi =>
    have ⟨lost, ht⟩ := hi
    have ⟨lost', ht'⟩ := step_ok (linkHelpers_keeps library hb ht) hs
    exact ⟨lost' ++ lost, by rwa [map_append]⟩

def opening (p : Pipeline) : Opening :=
  ⟨p.draft, []⟩

theorem of_new {words : List Word} (h : new words = .ok p) : Module.ofWords words = .ok p.analysis
    ∧ Draft.ofBinary p.analysis.toBinary = .ok p.draft ∧ p.requests = [] := by
  unfold new at h
  split at h
  case isFalse => cases h
  case isTrue =>
    have ⟨m, hm, h⟩ := ok_of_bind h
    have ⟨d, hd, h⟩ := ok_of_bind h
    cases h
    exact ⟨ok_of_mapError hm, hd, rfl⟩

theorem new_spec {words : List Word} (h : new words = .ok p) : ∃ b, Binary.ofWords words = .ok b
    ∧ Draft.ofBinary b = .ok p.draft ∧ p.requests = [] :=
  have ⟨hm, hd, hr⟩ := of_new h
  ⟨p.analysis.toBinary, Module.read_of_ofWords hm, hd, hr⟩

theorem opening_sound {b : Binary} (hd : Draft.ofBinary b = .ok p.draft) (hv : b.Valid) :
    p.opening.Sound := by
  have ⟨hn, hb⟩ := Draft.ofBinary_sound hd hv
  exact ⟨by simpa [opening] using hn, by simpa [opening] using hb⟩

theorem tracked_opening (h : p.requests = []) : p.Tracked p.opening [] :=
  (Workspace.tracked_iff h).mpr .start

-- What a pipeline has got to is a start for what it gets to from there.
theorem Reached.bound_le (h : Reached p q) (hb : base.Sound) (hp : p.Lost base) :
    p.draft.bound ≤ q.draft.bound := by
  have ⟨rest, ht⟩ := hp
  have hs : (⟨p.draft, p.pending ++ rest⟩ : Opening).Sound :=
    ⟨ht.nodup hb, fun _ hx => ht.lt_bound hb hx⟩
  have ⟨_, ht'⟩ := h.lost hs ⟨rest, .start⟩
  exact ht'.bound_le

theorem ids_of_reached {words : List Word} (h : new words = .ok p₀) (hp : Reached p₀ p)
    (hq : Reached p q) : ∃ b, Binary.ofWords words = .ok b
      ∧ q.draft.ids.Nodup
      ∧ (∀ id ∈ q.draft.ids, id < q.draft.bound)
      ∧ p.draft.bound ≤ q.draft.bound
      ∧ (∀ id ∈ q.draft.ids, id ∉ b.ids → b.header.bound ≤ id)
      ∧ ∀ i ∈ b.instructions.toList, ∀ id, i.resultId? = some id →
        (q.draft.statements.filter (·.resultId = some id)).map Statement.resultType
          = [i.typeId?] := by
  obtain ⟨b, hread, hd, hr⟩ := new_spec h
  have hv := Binary.read_valid hread
  have hb := opening_sound hd hv
  have hdefs := Draft.ofBinary_definitions hd hv
  have hids : p₀.draft.ids ~ b.ids := by
    rw [← b.map_fst_defines, ← p₀.draft.map_fst_definitions]
    exact hdefs.map Prod.fst
  have hbound : p₀.draft.bound = b.header.bound := congrArg Header.bound (Draft.ofBinary_header hd)
  have hlost : p.Lost p₀.opening := hp.lost hb ⟨[], tracked_opening hr⟩
  obtain ⟨rest, ht⟩ := hq.lost hb hlost
  have hs := ht.sound hb
  have hmem {id : Id} (hid : id ∈ q.draft.ids) : ∃ x ∈ q.draft.definitions, x.1 = id :=
    mem_map.mp (q.draft.map_fst_definitions ▸ hid)
  have hnodup : q.draft.ids.Nodup := q.draft.map_fst_definitions ▸ hs.nodup
  refine ⟨b, hread, hnodup, fun id hid => ?_, hq.bound_le hb hlost, fun id hid hn => ?_,
    fun i hi id hid => ?_⟩
  · obtain ⟨x, hx, heq⟩ := hmem hid
    exact heq ▸ hs.below x hx
  · obtain ⟨x, hx, heq⟩ := hmem hid
    -- An id is one that was read, or was taken after the bound that was read.
    cases ht.mem_or_between (mem_append_left _ hx)
    case inr hle => exact hbound ▸ heq ▸ hle.left
    case inl h₀ =>
      refine absurd (hids.mem_iff.mp ?_) hn
      simpa [opening, p₀.draft.map_fst_definitions, heq] using h₀
  · have hdef : (id, i.typeId?) ∈ b.defines :=
      mem_flatMap.mpr ⟨i, hi, by simp [Statement.defines, Statement.ofInstruction, hid]⟩
    have hdef := ht.definitions_subset (hdefs.mem_iff.mpr hdef)
    obtain ⟨s, hs, hsid, hst⟩ := Draft.mem_definitions_iff.mp hdef
    rw [filter_resultId_eq hnodup hs hsid, map_cons, hst, map_nil]

theorem ids_of_reached_missing_helper :
    ∃ p₀ b, new startsRayQuery = .ok p₀ ∧ Binary.ofWords startsRayQuery = .ok b
      ∧ let p := (p₀.run { rayQuery := true }).2
        let q := (p.link fun _ => none).2
        (p₀.run { rayQuery := true }).1 = .ok 1
        ∧ (p.link fun _ => none).1 = .error (.missingHelper RayQuery.helper)
        ∧ q.draft.ids = [1, 2, 13, 14, 15, 3, 4, 17, 18, 19, 20]
        ∧ q.draft.ids.Nodup
        ∧ (∀ id ∈ q.draft.ids, id < q.draft.bound)
        ∧ p.draft.bound ≤ q.draft.bound
        ∧ (∀ id ∈ q.draft.ids, id ∉ b.ids → b.header.bound ≤ id)
        ∧ ∀ i ∈ b.instructions.toList, ∀ id, i.resultId? = some id →
          (q.draft.statements.filter (·.resultId = some id)).map Statement.resultType
            = [i.typeId?] := by
  have hrun : ((new startsRayQuery).map fun p₀ => decide (
      let p := (p₀.run { rayQuery := true }).2
      (p₀.run { rayQuery := true }).1 = .ok 1
      ∧ (p.link fun _ => none).1 = .error (.missingHelper RayQuery.helper)
      ∧ (p.link fun _ => none).2.draft.ids = [1, 2, 13, 14, 15, 3, 4, 17, 18, 19, 20]))
        = .ok true := by
    decide +kernel
  obtain ⟨p₀, h, hcount, hlink, hids⟩ := exists_ok_of_decide hrun
  have hp : Reached p₀ (p₀.run { rayQuery := true }).2 := .run _ .start
  have ⟨b, hb, hrest⟩ := ids_of_reached h hp (.link (fun _ => none) .start)
  exact ⟨p₀, b, h, hb, hcount, hlink, hids, hrest⟩

theorem Reached.wellFormed {words : List Word} (h : new words = .ok p₀) (hp : Reached p₀ p) :
    p.draft.WellFormed := by
  have ⟨b, hread, hd, hr⟩ := new_spec h
  have hv := Binary.read_valid hread
  have ⟨_, ht⟩ := hp.lost (opening_sound hd hv) ⟨[], tracked_opening hr⟩
  exact ht.wellFormed (Draft.ofBinary_wellFormed hd hv)

theorem Succeeded.readable {words : List Word} (h : new words = .ok p₀) (hp : Succeeded p₀ p) :
    p.draft.WellFormed ∧ p.draft.Sound ∧ p.draft.Indexed := by
  have ⟨b, hread, hd, hr⟩ := new_spec h
  have hv := Binary.read_valid hread
  have hb := opening_sound hd hv
  have hx : p₀.opening.Indexed := by
    simpa [Opening.Indexed, opening, Draft.Indexed] using Draft.ofBinary_indexed hd hv
  have ⟨lost, ht⟩ := hp.tracked hb (tracked_opening hr)
  refine ⟨ht.wellFormed (Draft.ofBinary_wellFormed hd hv), ht.sound hb, fun id type => ?_⟩
  rw [ht.index hb hx]
  simp [Workspace.pending]

theorem read_words_of_succeeded {words : List Word} (h : new words = .ok p₀) (hp : Succeeded p₀ p)
    (he : ∀ e ∈ p.draft.entryPoints, e.length ≤ 65535) :
    ∃ b d, Binary.read p.words = .ok b ∧ Draft.ofBinary b = .ok d ∧ d.forget = p.draft.forget := by
  have ⟨hw, hs, hx⟩ := hp.readable h
  exact hw.read_words hs hx fun e hmem => Nat.lt_succ_of_le (he e hmem)

theorem read_words_of_succeeded_permit :
    ∃ p₀ b d, new startsRayQuery = .ok p₀
      ∧ let p := (p₀.run { rayQuery := true }).2
        let q := (p.link fun _ => some permit).2
        (p₀.run { rayQuery := true }).1 = .ok 1
        ∧ (p.link fun _ => some permit).1 = .ok ()
        ∧ (q.words.length, q.draft.entryPoints) = (81, [])
        ∧ Binary.read q.words = .ok b ∧ Draft.ofBinary b = .ok d ∧ d.forget = q.draft.forget := by
  have hrun : ((new startsRayQuery).map fun p₀ => decide (
      let p := (p₀.run { rayQuery := true }).2
      let q := (p.link fun _ => some permit).2
      (p₀.run { rayQuery := true }).1 = .ok 1
      ∧ (p.link fun _ => some permit).1 = .ok ()
      ∧ (q.words.length, q.draft.entryPoints) = (81, []))) = .ok true := by
    decide +kernel
  obtain ⟨p₀, h, hcount, hlink, hdraft⟩ := exists_ok_of_decide hrun
  have hentries := (Prod.mk.inj hdraft).right
  have hp := (Succeeded.start.run _ hcount).link _ hlink
  have ⟨b, d, hread⟩ := read_words_of_succeeded h hp (by simp [hentries])
  exact ⟨p₀, b, d, h, hcount, hlink, hdraft, hread⟩

end Pipeline
end Shader
