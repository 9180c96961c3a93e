import Shader.Proofs.Instrument.Failure
import Shader.Proofs.Instrument.Frame

namespace Shader

open List

def Draft.functionIds (d : Draft) : List Id :=
  d.functions.map FunctionDraft.id

namespace Workspace

variable {n : Nat} {owed owed' lost left : List HelperRequest} {w w' w'' : Workspace}
  {r : HelperRequest}

def addedCalls (n : Nat) (w : Workspace) : List Statement :=
  (w.draft.functions.take n).flatMap FunctionDraft.addedCalls

-- The module had `n` functions. What is called from there is one of the functions or in `owed`. The
-- functions that were linked come after those of the module, and have nothing that a check would
-- visit.
structure Accounts (n : Nat) (owed : List HelperRequest) (w : Workspace) : Prop where
  present : n ≤ w.draft.functions.length
  calls   : ∀ call ∈ w.addedCalls n, ∃ id, call.operands.head? = some id
    ∧ (id ∈ w.draft.functionIds ∨ id ∈ owed.map HelperRequest.function)
  linked  : ∀ f ∈ w.draft.functions.drop n, ∀ b ∈ f.blocks, ∀ s ∈ b.body, s.origin = none

namespace Accounts

theorem of_functions (h : w.Accounts n owed) (hf : w'.draft.functions = w.draft.functions) :
    w'.Accounts n owed where
  present := hf ▸ h.present
  calls := by
    rw [addedCalls, Draft.functionIds, hf]
    exact h.calls
  linked := hf ▸ h.linked

theorem mono (h : w.Accounts n owed)

    (ho : ∀ r ∈ owed, r.function ∈ w.draft.functionIds
      ∨ r.function ∈ owed'.map HelperRequest.function) :
    w.Accounts n owed' where
  present := h.present
  calls call hc := by
    obtain ⟨id, hid, hdef | howed⟩ := h.calls call hc
    · exact ⟨id, hid, .inl hdef⟩
    · obtain ⟨r, hr, rfl⟩ := mem_map.mp howed
      exact ⟨r.function, hid, ho r hr⟩
  linked := h.linked

theorem gains {request : Id} (h : w.Accounts n owed) (hg : w.draft.Gains request w'.draft) :
    w'.Accounts n owed := by
  obtain ⟨fs, heq, hfs⟩ := hg
  refine ⟨?_, fun call hc => ?_, ?_⟩
  · have := h.present
    rw [heq, length_append]
    omega
  · rw [addedCalls, heq, take_append_of_le_length h.present] at hc
    obtain ⟨id, hid, hcallee⟩ := h.calls call hc
    refine ⟨id, hid, hcallee.imp_left fun hmem => ?_⟩
    rw [Draft.functionIds, heq, map_append]
    exact mem_append_left _ hmem
  · rw [heq, drop_append_of_le_length h.present, forall_mem_append]
    exact ⟨h.linked, fun f hf => (hfs f hf).right⟩

theorem lt_of_origin {p : Position} {f : FunctionDraft} {b : Block} {t : Statement}
    (h : w.Accounts n owed) (hf : w.draft.functions[p.function]? = some f) (hb : b ∈ f.blocks)
    (ht : t ∈ b.body) (ho : t.origin.isSome) :
    p.function < n := by
  by_contra hn
  have hmem : f ∈ w.draft.functions.drop n := by
    refine mem_of_getElem? (i := p.function - n) ?_
    rw [getElem?_drop, Nat.add_sub_cancel' (Nat.le_of_not_lt hn), hf]
  simp [h.linked f hmem b hb t ht] at ho

theorem visited {missed : Prop} {tests : Workspace → Edit → Prop} {p : Position} {b : Block}
    {t : Statement} {next : Option Position} (h : w.Accounts n (w.requests ++ lost))
    (ho : t.origin.isSome) (hv : Visited missed tests w p b t next w') :
    w'.Accounts n (w'.requests ++ lost) ∧ w'.draft.functionIds = w.draft.functionIds := by
  cases hv
  case passed hd hr =>
    rw [hr]
    exact ⟨h.of_functions (congrArg Draft.functions hd), by rw [hd]⟩
  case edited e hturn hreq _ hcalls _ =>
    obtain ⟨f, f', hf, ha, hset⟩ := hturn.functions
    obtain ⟨call, hperm, _, r, hr, hcallee⟩ := ha.addedCalls_perm ho hcalls
    -- A statement with an origin was read, so its function is not one that was linked.
    have hlt := h.lt_of_origin hf (mem_of_getElem? ha.found) (mem_of_getElem? ha.statement) ho
    have hids : w'.draft.functionIds = w.draft.functionIds := by
      have hid : f'.id = f.id := by rw [ha.rest]; rfl
      obtain ⟨hi, rfl⟩ := List.getElem?_eq_some_iff.mp hf
      rw [Draft.functionIds, Draft.functionIds, hset, map_set, hid, ← getElem_map FunctionDraft.id,
        set_getElem_self]
      simpa using hi
    have hperm : w'.addedCalls n ~ w.addedCalls n ++ [call] := by
      have hf : (w.draft.functions.take n)[p.function]? = some f := by
        rw [getElem?_take_of_lt hlt, hf]
      rw [addedCalls, addedCalls, hset, take_set, ← modify_eq_set_of_getElem? (g := fun _ => f') hf]
      exact flatMap_modify_perm hf hperm
    refine ⟨⟨?_, fun c hc => ?_, ?_⟩, hids⟩
    · rw [hset, length_set]
      exact h.present
    · obtain hc | hc := mem_append.mp (hperm.mem_iff.mp hc)
      · obtain ⟨id, hid, hcallee⟩ := h.calls c hc
        refine ⟨id, hid, hids ▸ hcallee.imp_right fun hmem => ?_⟩
        simp only [map_append, mem_append, mem_map] at hmem ⊢
        exact hmem.imp_left fun ⟨r, hr, heq⟩ => ⟨r, hreq r hr, heq⟩
      · refine ⟨r.function, mem_singleton.mp hc ▸ hcallee, .inr (mem_map_of_mem ?_)⟩
        exact mem_append_left _ hr
    · rw [hset, drop_set_of_lt hlt]
      exact h.linked

end Accounts

structure Resolves (n : Nat) (lost : List HelperRequest) (w : Workspace) (left : List HelperRequest)
    (w' : Workspace) : Prop where
  requests : w'.requests = []
  subset   : left ⊆ w.requests
  below    : ∀ r ∈ left, r.function < w'.draft.bound
  bound    : w.draft.bound ≤ w'.draft.bound
  ids      : ∀ id ∈ w'.draft.functionIds, id ∈ w.draft.functionIds
    ∨ id ∈ w.requests.map HelperRequest.function
    ∨ w.draft.bound ≤ id
  accounts : w'.Accounts n (left ++ lost)

namespace Resolves

theorem gains (h : w.Resolves n lost (r :: left) w') (hr : w''.requests = w'.requests)
    (hb : w'.draft.bound ≤ w''.draft.bound) (hg : w'.draft.Gains r.function w''.draft) :
    w.Resolves n lost (r :: left) w'' where
  requests := hr.trans h.requests
  subset := h.subset
  below r hr := UInt32.lt_of_lt_of_le (h.below r hr) hb
  bound := UInt32.le_trans h.bound hb
  ids id hid := by
    obtain ⟨fs, heq, hfs⟩ := hg
    rw [Draft.functionIds, heq, map_append, mem_append] at hid
    obtain hid | hid := hid
    · exact h.ids id hid
    · obtain ⟨f, hf, rfl⟩ := mem_map.mp hid
      obtain heq | hle := (hfs f hf).left
      · exact .inr (.inl (heq ▸ mem_map_of_mem (h.subset mem_cons_self)))
      · exact .inr (.inr (UInt32.le_trans h.bound hle))
  accounts := h.accounts.gains hg

theorem met (h : w.Resolves n lost (r :: left) w') (hf : r.function ∈ w'.draft.functionIds) :
    w.Resolves n lost left w' where
  requests := h.requests
  subset := (cons_subset.mp h.subset).right
  below := (forall_mem_cons.mp h.below).right
  bound := h.bound
  ids := h.ids
  accounts := by
    refine h.accounts.mono ?_
    rw [cons_append, forall_mem_cons]
    exact ⟨.inl hf, fun _ hr => .inr (mem_map_of_mem hr)⟩

theorem not_mem (h : w.Resolves n lost left w') {id : Id} (hlt : id < w.draft.bound)
    (hf : id ∉ w.draft.functionIds) (hn : id ∉ w.requests.map HelperRequest.function) :
    id ∉ w'.draft.functionIds := by
  intro hid
  obtain hid | hid | hle := h.ids id hid
  · exact hf hid
  · exact hn hid
  · exact absurd (UInt32.lt_of_le_of_lt hle hlt) (UInt32.lt_irrefl _)

end Resolves
end Workspace

theorem Linking.HelperLinked.function_mem {host h d : Draft} {request function : Id}
    {kept found : List Statement} {m : Renaming} {name : String}
    (hl : HelperLinked host request h kept found m d) (hw : h.WellFormed)
    (hf : h.findFunction? name = some function) (hm : m[function]? = some request) :
    request ∈ d.functionIds := by
  obtain ⟨f, hmem, hid⟩ := Draft.findFunction?_spec hw hf
  have hfw := hw.functions f hmem
  obtain rfl : f.id = function := Option.some.inj (hfw.resultId.symm.trans hid)
  rw [Draft.functionIds, hl.functions, map_append, map_map]
  refine mem_append_right _ (mem_map.mpr ⟨f, hmem, ?_⟩)
  rw [Function.comp_apply, hfw.id_rename, Renaming.image_of_getElem? hm]

namespace Pipeline

variable {n : Nat} {lost : List HelperRequest} {w : Workspace} {base : Opening} {p q p₀ : Pipeline}

theorem runChecks_accounts (m : Module) (s : Settings) (h : w.Accounts n (w.requests ++ lost)) :
    let kept := fun w' : Workspace =>
      w'.Accounts n (w'.requests ++ lost) ∧ w'.draft.functionIds = w.draft.functionIds
    Leads (runChecks m s) w (fun _ => kept) kept := by
  intro kept
  refine foldlM_keeps (fun _ _ h => ⟨h.left.of_functions rfl, h.right⟩) (fun c hc w' hw' => ?_)
    0 ⟨h, rfl⟩
  obtain ⟨_, _, ht⟩ := checks_treat m s c hc
  refine c.run_leads (fun _ => kept) (fun w₁ p b t _ h₁ hb hat ho => ?_) (limit? s) hw'
  refine ((ht w₁ p b t hb hat).and (checks_failWithin m s c hc p w₁)).mono (fun _ w₂ ⟨hv, _⟩ => ?_)
    fun w₂ ⟨_, he⟩ => ?_
  · obtain ⟨ha, hids⟩ := h₁.left.visited ho hv
    exact ⟨ha, hids.trans h₁.right⟩
  · refine ⟨(h₁.left.of_functions he.draft.functions).mono fun r hr => .inr (mem_map_of_mem ?_), ?_⟩
    · exact mem_append.mpr ((mem_append.mp hr).imp_left fun hr => he.requests.subset hr)
    · rw [Draft.functionIds, he.draft.functions]
      exact h₁.right

theorem linkHelpers_resolves (library : String → Option (List Word))
    (hb : ∀ r ∈ w.requests, r.function < w.draft.bound) (h : w.Accounts n (w.requests ++ lost)) :
    Leads (linkHelpers library) w (fun _ => w.Resolves n lost []) fun w' =>
      ∃ left, w.Resolves n lost left w' := by
  refine .bind <| .get <| .bind <| .modify ?_
  refine .forM (w.Resolves n lost) (fun r left w₁ h₁ => ?_) ?_
  case refine_2 =>
    exact ⟨rfl, Subset.refl _, hb, UInt32.le_refl _, fun _ hid => .inl hid, h.of_functions rfl⟩
  case refine_1 =>
    refine (Instrumenting.linkRequest_leads (h₁.below r mem_cons_self)).mono (fun _ w₂ hw => ?_)
      fun w₂ ⟨hr, ha⟩ => ?_
    · obtain ⟨hr, _, m, helper, _, hm, hh, function, s, kept, found, hf, hs, hl⟩ := hw
      have hv := Binary.read_valid (Module.read_of_ofWords hm)
      refine (h₁.gains hr hl.linked.bound hl.linked.gains).met ?_
      exact hl.function_mem (Draft.ofBinary_wellFormed hh hv) hf hs
    · exact ⟨r :: left, h₁.gains hr ha.bound ha.gains⟩

-- What a pipeline can get to, with the requests that were lost on the way. If linking fails, it has
-- taken every request, and those that got no function are lost.
inductive Traced (p₀ : Pipeline) : List HelperRequest → Pipeline → Prop
  | start : Traced p₀ [] p₀
  | run {lost : List HelperRequest} {p : Pipeline} (s : Settings) : Traced p₀ lost p →
      Traced p₀ lost (p.run s).2
  | linked {lost : List HelperRequest} {p : Pipeline} (library : String → Option (List Word)) :
    Traced p₀ lost p → (p.link library).1 = .ok () → Traced p₀ lost (p.link library).2
  | failed {lost : List HelperRequest} {p : Pipeline} {e : EditError}
    (library : String → Option (List Word)) :
    Traced p₀ lost p → (p.link library).1 = .error e →
    Traced p₀ (lost ++ p.requests.filter (·.function ∉ (p.link library).2.draft.functionIds))
    (p.link library).2

theorem Traced.reached (h : Traced p₀ lost p) : Reached p₀ p := by
  induction h
  case start => exact .start
  case run s _ hi => exact .run s hi
  case linked library _ _ hi => exact .link library hi
  case failed library _ _ hi => exact .link library hi

theorem Reached.traced (h : Reached p₀ p) : ∃ lost, Traced p₀ lost p := by
  induction h
  case start => exact ⟨[], .start⟩
  case run s _ hi =>
    obtain ⟨lost, ht⟩ := hi
    exact ⟨lost, .run s ht⟩
  case link p library _ hi =>
    obtain ⟨lost, ht⟩ := hi
    cases hl : (p.link library).1
    case ok => exact ⟨lost, .linked library ht hl⟩
    case error => exact ⟨_, .failed library ht hl⟩

theorem function_lt_bound (hb : base.Sound) (h : p.Lost base) :
    ∀ r ∈ p.requests, r.function < p.draft.bound := by
  intro r hr
  have ⟨_, ht⟩ := h
  exact ht.lt_bound hb (mem_append_right _ (mem_append_left _ (mem_map_of_mem hr)))

theorem Reached.not_requested (h : Reached p q) (hb : base.Sound) (hp : p.Lost base) {id : Id}
    (hlt : id < p.draft.bound) (hn : id ∉ p.requests.map HelperRequest.function) :
    id ∉ q.requests.map HelperRequest.function := by
  have ⟨rest, ht⟩ := hp
  have hsub : p.draft.definitions ++ p.pending <+ p.draft.definitions ++ (p.pending ++ rest) :=
    (Sublist.refl _).append (sublist_append_left ..)
  have hs : (⟨p.draft, p.pending⟩ : Opening).Sound :=
    ⟨(hsub.map Prod.fst).nodup (ht.nodup hb), fun _ hx => ht.lt_bound hb (hsub.mem hx)⟩
  have ⟨rest', ht'⟩ := h.lost hs ⟨[], by simpa [Workspace.Tracked] using .start⟩
  intro hreq
  have hheld : (id, none) ∈ q.pending ++ rest' := by
    obtain ⟨r, hr, rfl⟩ := mem_map.mp hreq
    exact mem_append_left _ (mem_map_of_mem hr)
  obtain hold | ⟨hle, _⟩ := ht'.mem_or_between (mem_append_right _ hheld)
  · rw [map_append, mem_append] at hold
    obtain hdef | hpend := hold
    · obtain ⟨x, hx, heq⟩ := mem_map.mp hdef
      have hnodup := ht'.nodup hs
      rw [map_append, nodup_append] at hnodup
      exact hnodup.right.right x.1 (mem_map_of_mem (ht'.definitions_subset hx)) id
        (mem_map_of_mem hheld) heq
    · exact hn (by simpa [Workspace.pending] using hpend)
  · exact absurd (UInt32.lt_of_le_of_lt hle hlt) (UInt32.lt_irrefl _)

-- What is called is accounted for, and what is lost stays lost.
structure Balanced (n : Nat) (lost : List HelperRequest) (p : Pipeline) : Prop where
  accounts : p.Accounts n (p.requests ++ lost)
  below    : ∀ r ∈ lost, r.function < p.draft.bound
  absent   : ∀ r ∈ lost, r.function ∉ p.draft.functionIds
  unlisted : ∀ r ∈ lost, r.function ∉ p.requests.map HelperRequest.function

namespace Balanced

theorem start (h : ∀ f ∈ p.draft.functions, f.Original) :
    Balanced p.draft.functions.length [] p where
  accounts := by
    refine ⟨Nat.le_refl _, fun call hc => ?_, by simp⟩
    obtain ⟨f, hf, hc⟩ := mem_flatMap.mp hc
    rw [(h f (mem_of_mem_take hf)).addedCalls_eq] at hc
    cases hc
  below := by simp
  absent := by simp
  unlisted := by simp

variable (h : Balanced n lost p)

include h

theorem resolves {left : List HelperRequest} (hq : p.Resolves n lost left q.toWorkspace) :
    ∀ r ∈ lost, r.function < q.draft.bound ∧ r.function ∉ q.draft.functionIds := by
  intro r hr
  refine ⟨UInt32.lt_of_lt_of_le (h.below r hr) hq.bound, ?_⟩
  exact hq.not_mem (h.below r hr) (h.absent r hr) (h.unlisted r hr)

variable (hb : base.Sound) (hp : p.Lost base)

include hb hp

theorem run (s : Settings) : Balanced n lost (p.run s).2 := by
  have hr : Reached p (p.run s).2 := .run s .start
  obtain ⟨ha, hids⟩ := step_leads (runChecks_accounts p.analysis s h.accounts) fun _ _ => id
  refine ⟨ha, fun r hmem => ?_, fun r hmem => ?_, fun r hmem => ?_⟩
  · exact UInt32.lt_of_lt_of_le (h.below r hmem) (hr.bound_le hb hp)
  · exact fun hid => h.absent r hmem (hids ▸ hid)
  · exact hr.not_requested hb hp (h.below r hmem) (h.unlisted r hmem)

theorem linked {library : String → Option (List Word)} (hl : (p.link library).1 = .ok ()) :
    Balanced n lost (p.link library).2 := by
  have hq := step_ok (linkHelpers_resolves library (function_lt_bound hb hp) h.accounts) hl
  have hlost := h.resolves hq
  have hnil : (p.link library).2.requests = [] := hq.requests
  refine ⟨?_, fun r hr => (hlost r hr).left, fun r hr => (hlost r hr).right, fun r _ => ?_⟩
  all_goals rw [hnil]
  · exact hq.accounts
  · exact not_mem_nil

theorem failed {library : String → Option (List Word)} {e : EditError}
    (hl : (p.link library).1 = .error e) :
    Balanced n (lost ++ p.requests.filter (·.function ∉ (p.link library).2.draft.functionIds))
      (p.link library).2 := by
  obtain ⟨left, hq⟩ := step_error (linkHelpers_resolves library (function_lt_bound hb hp)
    h.accounts) hl
  have hlost := h.resolves hq
  have hnil : (p.link library).2.requests = [] := hq.requests
  refine ⟨?_, fun r hr => ?_, fun r hr => ?_, fun r _ => ?_⟩
  · rw [hnil]
    refine hq.accounts.mono fun r hr => ?_
    by_cases hf : r.function ∈ (p.link library).2.draft.functionIds
    case pos => exact .inl hf
    case neg =>
      refine .inr (mem_map_of_mem ?_)
      rw [nil_append, mem_append, mem_filter]
      exact (mem_append.mp hr).symm.imp_right fun hr => ⟨hq.subset hr, by simpa using hf⟩
  · obtain hr | hr := mem_append.mp hr
    · exact (hlost r hr).left
    · exact UInt32.lt_of_lt_of_le (function_lt_bound hb hp r (mem_of_mem_filter hr)) hq.bound
  · obtain hr | hr := mem_append.mp hr
    · exact (hlost r hr).right
    · simpa using (mem_filter.mp hr).right
  · rw [hnil]
    exact not_mem_nil

end Balanced

theorem Traced.balanced {words : List Word} (h₀ : new words = .ok p₀) (h : Traced p₀ lost p) :
    Balanced p₀.draft.functions.length lost p := by
  obtain ⟨b, hread, hd, hr⟩ := new_spec h₀
  have hb := opening_sound hd (Binary.read_valid hread)
  have hlost {lost : List HelperRequest} {p : Pipeline} (h : Traced p₀ lost p) :
      p.Lost p₀.opening :=
    h.reached.lost hb ⟨[], tracked_opening hr⟩
  induction h
  case start => exact .start (original_of_new h₀)
  case run s h hi => exact hi.run hb (hlost h) s
  case linked library h hl hi => exact hi.linked hb (hlost h) hl
  case failed library h hl hi => exact hi.failed hb (hlost h) hl

theorem callee_iff_of_traced {words : List Word} (h : new words = .ok p₀) :
    (∀ p, Reached p₀ p ↔ ∃ lost, Traced p₀ lost p)
      ∧ ∀ lost p, Traced p₀ lost p →
        (∀ f ∈ p.draft.functions.drop p₀.draft.functions.length, f.originals = [])
        ∧ ∀ call ∈ p.addedCalls p₀.draft.functions.length, ∃ id, call.operands.head? = some id
          ∧ (id ∈ p.draft.functionIds ∨ id ∈ p.requests.map HelperRequest.function
            ↔ id ∉ lost.map HelperRequest.function) := by
  refine ⟨fun p => ⟨Reached.traced, fun ⟨_, ht⟩ => ht.reached⟩, fun lost p ht => ?_⟩
  have hbal := ht.balanced h
  refine ⟨fun f hf => filter_eq_nil_iff.mpr fun s hs => ?_, fun call hc => ?_⟩
  · obtain ⟨b, hb, hs⟩ := mem_flatMap.mp hs
    simp [hbal.accounts.linked f hf b hb s hs]
  · obtain ⟨id, hid, hcallee⟩ := hbal.accounts.calls call hc
    refine ⟨id, hid, fun hfound hlost => ?_, fun hn => ?_⟩
    · obtain ⟨r, hr, rfl⟩ := mem_map.mp hlost
      exact hfound.elim (hbal.absent r hr) (hbal.unlisted r hr)
    · rw [map_append, mem_append] at hcallee
      exact hcallee.imp_right (·.resolve_right hn)

-- The helper is missing the first time. After another run there is one, but the first call does not
-- get it.
theorem callee_iff_of_traced_late_helper :
    ∃ p₀, new startsRayQuery = .ok p₀
      ∧ let p₁ := (p₀.run { rayQuery := true }).2
        let p₂ := (p₁.link fun _ => none).2
        let p₃ := (p₂.run { rayQuery := true }).2
        let p₄ := (p₃.link fun _ => some permit).2
        let lost := p₁.requests.filter (·.function ∉ p₂.draft.functionIds)
        lost = [⟨RayQuery.helper, 16⟩]
        ∧ (p₄.addedCalls p₀.draft.functions.length).map (·.operands.head?) = [some 16, some 21]
        ∧ p₄.draft.functionIds = [3, 21]
        ∧ (∀ p, Reached p₀ p ↔ ∃ lost, Traced p₀ lost p)
        ∧ Traced p₀ lost p₄
        ∧ (∀ f ∈ p₄.draft.functions.drop p₀.draft.functions.length, f.originals = [])
        ∧ ∀ call ∈ p₄.addedCalls p₀.draft.functions.length, ∃ id, call.operands.head? = some id
          ∧ (id ∈ p₄.draft.functionIds ∨ id ∈ p₄.requests.map HelperRequest.function
            ↔ id ∉ lost.map HelperRequest.function) := by
  have hrun : ((new startsRayQuery).map fun p₀ => decide (
      let p₁ := (p₀.run { rayQuery := true }).2
      let p₂ := (p₁.link fun _ => none).2
      let p₃ := (p₂.run { rayQuery := true }).2
      let p₄ := (p₃.link fun _ => some permit).2
      (p₁.link fun _ => none).1 = .error (.missingHelper RayQuery.helper)
      ∧ (p₃.link fun _ => some permit).1 = .ok ()
      ∧ p₁.requests.filter (·.function ∉ p₂.draft.functionIds) = [⟨RayQuery.helper, 16⟩]
      ∧ (p₄.addedCalls p₀.draft.functions.length).map (·.operands.head?) = [some 16, some 21]
      ∧ p₄.draft.functionIds = [3, 21])) = .ok true := by
    decide +kernel
  obtain ⟨p₀, h, hfail, hlink, hlost, hcalls, hids⟩ := exists_ok_of_decide hrun
  have ht := ((((Traced.start.run _).failed _ hfail).run _).linked _ hlink)
  have ⟨hreached, htraced⟩ := callee_iff_of_traced h
  exact ⟨p₀, h, hlost, hcalls, hids, hreached, ht, htraced _ _ ht⟩

theorem callee_lost_by_missing_helper :
    ∃ p₀, new startsRayQuery = .ok p₀
      ∧ let q := ((p₀.run { rayQuery := true }).2.link fun _ => none).2
        Reached p₀ q
        ∧ (q.addedCalls p₀.draft.functions.length).map (·.operands.head?) = [some 16]
        ∧ 16 ∉ q.draft.functionIds ∧ q.requests = [] := by
  have hrun : ((new startsRayQuery).map fun p₀ => decide (
      let q := ((p₀.run { rayQuery := true }).2.link fun _ => none).2
      (q.addedCalls p₀.draft.functions.length).map (·.operands.head?) = [some 16]
      ∧ 16 ∉ q.draft.functionIds ∧ q.requests = [])) = .ok true := by
    decide +kernel
  obtain ⟨p₀, h, hq⟩ := exists_ok_of_decide hrun
  exact ⟨p₀, h, .link _ (.run _ .start), hq⟩

end Pipeline
end Shader
