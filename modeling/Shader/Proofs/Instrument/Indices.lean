import Shader.Proofs.Analysis.Resource
import Shader.Proofs.Instrument.Frame
import Shader.Proofs.Instrument.Loop

namespace Shader

open List

namespace Binary.HasLength

variable {b : Binary} {type : Instruction} {n n' : Nat}

theorem isArray (h : b.HasLength type n) : type.isArray := by
  refine isArray_iff.mpr ?_
  obtain ⟨ho, _⟩ | ⟨ho, _⟩ := h
  · exact .inr ho
  · exact .inl ho

theorem unique (h : b.HasLength type n) (h' : b.HasLength type n') : n = n' := by
  obtain ⟨ho, rfl⟩ | ⟨ho, l, hl, rfl⟩ := h <;> obtain ⟨ho', rfl⟩ | ⟨ho', l', hl', rfl⟩ := h'
  · rfl
  · cases ho.symm.trans ho'
  · cases ho.symm.trans ho'
  · cases hl.symm.trans hl'
    rfl

end Binary.HasLength

section

variable {α β : Type} {key : α → Id} {value : α → β} {l : List α} {t : Std.TreeMap Id β} {k : Id}
  {v : β}

theorem mem_of_foldl_insert (h : (l.foldl (fun t a => t.insert (key a) (value a)) t)[k]? = some v) :
    t[k]? = some v ∨ ∃ a ∈ l, key a = k ∧ value a = v := by
  induction l generalizing t
  case nil => exact .inl h
  case cons a l hi =>
    obtain h | ⟨a', ha', hv⟩ := hi h
    case inr => exact .inr ⟨a', mem_cons_of_mem _ ha', hv⟩
    case inl =>
      rw [Std.TreeMap.getElem?_insert] at h
      split at h
      case isTrue hk =>
        cases h
        exact .inr ⟨a, mem_cons_self, by simpa using hk, rfl⟩
      case isFalse => exact .inl h

theorem isSome_foldl_insert (h : t[k]?.isSome ∨ ∃ a ∈ l, key a = k) :
    ((l.foldl (fun t a => t.insert (key a) (value a)) t)[k]?).isSome := by
  induction l generalizing t
  case nil => simpa using h
  case cons a l hi =>
    refine hi ?_
    rw [Std.TreeMap.getElem?_insert]
    split
    case isTrue => exact .inl rfl
    case isFalse hk => simpa [show key a ≠ k by simpa using hk] using h

end

namespace DescriptorIndexing

variable {m : Module} {id : Id} {a a' : DescriptorArray}

structure IsArray (m : Module) (id : Id) (a : DescriptorArray) : Prop where
  used    : ∃ e ∈ m.entryPoints, ∃ r ∈ e.resources, r.id = id
  type    : ∃ target type, m.pointee? id = .ok (some target) ∧ m.definition? target = some type
    ∧ m.HasLength type a.length
  set     : a.set = (m.decorationsOf id).base.set.getD 0
  binding : a.binding = (m.decorationsOf id).base.binding.getD 0

theorem IsArray.unique (h : IsArray m id a) (h' : IsArray m id a') : a = a' := by
  obtain ⟨target, type, hp, hd, hl⟩ := h.type
  obtain ⟨target', type', hp', hd', hl'⟩ := h'.type
  cases hp.symm.trans hp'
  cases hd.symm.trans hd'
  have hset := h.set.trans h'.set.symm
  have hbinding := h.binding.trans h'.binding.symm
  have hlength := hl.unique hl'
  cases a
  cases a'
  simp_all

theorem arrays_eq_some_iff (hm : m.IsAnalysed) : (arrays m)[id]? = some a ↔ IsArray m id a := by
  have hsound {a : DescriptorArray} (h : (arrays m)[id]? = some a) : IsArray m id a := by
    obtain h | ⟨r, hr, rfl, rfl⟩ := mem_of_foldl_insert h
    case inl => simp at h
    case inr =>
      obtain ⟨hr, harray⟩ := mem_filter.mp hr
      obtain ⟨e, he, hr⟩ := mem_flatMap.mp hr
      have hd := hm.describes he r hr
      obtain ⟨type, htype, harray⟩ := (Option.any_eq_true ..).mp harray
      exact ⟨⟨e, he, r, hr, rfl⟩, ⟨r.type, type, hd.pointee, htype, hd.length type htype harray⟩,
        hd.set, hd.binding⟩
  refine ⟨hsound, fun h => ?_⟩
  obtain ⟨e, he, r, hr, rfl⟩ := h.used
  obtain ⟨target, type, hp, hdef, hl⟩ := h.type
  cases (hm.describes he r hr).pointee.symm.trans hp
  have hsome : ((arrays m)[r.id]?).isSome := by
    refine isSome_foldl_insert (.inr ⟨r, mem_filter.mpr ⟨mem_flatMap.mpr ⟨e, he, hr⟩, ?_⟩, rfl⟩)
    simpa [hdef] using hl.isArray
  obtain ⟨a', ha'⟩ := Option.isSome_iff_exists.mp hsome
  rw [ha', h.unique (hsound ha')]

-- The access chain `s` came with the module and looks up a descriptor in an array of them.
structure Targets (m : Module) (skip : Bool) (s : Statement) (l : Lookup) : Prop where
  offset : s.origin = some l.offset
  lookup : l.DoneBy m skip s
  array  : IsArray m l.base l.array

-- What the check makes of the statement `s`. The ids that it uses for that are from `bound` on.
structure Treated (m : Module) (skip : Bool) (bound : Id) (w : Workspace) (s : Statement)
    (x : Piece) : Prop where
  changed  : x.statement.operands ≠ s.operands ↔ ∃ l, Targets m skip s l
  kept     : (¬∃ l, Targets m skip s l) → x = ⟨[], s⟩
  replaced : ∀ l, Targets m skip s l → l.Replaces bound w s x

variable {skip : Bool} {s : Statement} {l l' : Lookup} {bound : Id} {w w' : Workspace} {x : Piece}

theorem Targets.unique (h : Targets m skip s l) (h' : Targets m skip s l') : l = l' := by
  obtain ⟨offset, base, array, index, signed⟩ := l
  obtain ⟨offset', base', array', index', signed'⟩ := l'
  cases h.offset.symm.trans h'.offset
  obtain ⟨rest, hr⟩ := h.lookup.operands
  obtain ⟨rest', hr'⟩ := h'.lookup.operands
  cases hr.symm.trans hr'
  obtain rfl : array = array' := h.array.unique h'.array
  obtain ⟨type, ht, _, _, hs⟩ := h.lookup.type
  obtain ⟨type', ht', _, _, hs'⟩ := h'.lookup.type
  cases ht.symm.trans ht'
  obtain rfl : signed = signed' := Bool.eq_iff_iff.mpr (hs.trans hs'.symm)
  rfl

theorem Treated.mono (h : Treated m skip bound w s x) (hg : w.Grows w') :
    Treated m skip bound w' s x :=
  ⟨h.changed, h.kept, fun l hl => (h.replaced l hl).mono hg (UInt32.le_refl _)⟩

theorem treated_of_kept (h : ¬∃ l, Targets m skip s l) : Treated m skip bound w s ⟨[], s⟩ :=
  ⟨by simpa using h, fun _ => rfl, fun l hl => absurd ⟨l, hl⟩ h⟩

theorem treated_of_replaces (hb : ∀ id i, m.definition? id = some i → id < bound)
    (hl : Targets m skip s l) (h : l.Replaces bound w s x) : Treated m skip bound w s x where
  changed := by
    refine ⟨fun _ => ⟨l, hl⟩, fun _ heq => ?_⟩
    obtain ⟨_, _, _, _, safe, _, _, _, _, _, hsafe, _, _, hstatement⟩ := h
    obtain ⟨rest, hrest⟩ := hl.lookup.operands
    obtain ⟨type, ht, _⟩ := hl.lookup.type
    obtain ⟨i, hi, _⟩ := Option.bind_eq_some_iff.mp ht
    -- The index is defined in the module, and the result of the call is not.
    have hlt : l.index < safe := UInt32.lt_of_lt_of_le (hb _ i hi) hsafe
    rw [hstatement, hrest] at heq
    have hsame : safe = l.index := by simpa using heq
    exact UInt32.lt_irrefl _ (hsame ▸ hlt)
  kept hn := absurd ⟨l, hl⟩ hn
  replaced l' hl' := hl.unique hl' ▸ h

-- Up to where the check is, each statement is treated, and after that all is as it was.
def Follows (m : Module) (skip : Bool) (w₀ : Workspace) (g : Check.Progress) : Prop :=
  w₀.Grows g.workspace
    ∧ Draft.ReworkedTo (Treated m skip w₀.draft.bound g.workspace) g.position w₀.draft
    g.workspace.draft

theorem Follows.moved {settings : Settings} {limit : Option Nat} {g g' : Check.Progress}
    {visits : List Check.Visit} {w₀ : Workspace} (hm : m.IsAnalysed)
    (hb : ∀ id i, m.definition? id = some i → id < w₀.draft.bound)
    (hmoved : (check m settings).Moved limit g visits g')
    (h : Follows m settings.skipConstantInBounds w₀ g) :
    Follows m settings.skipConstantInBounds w₀ g' := by
  obtain ⟨hgrows, hto⟩ := h
  cases hmoved
  case function hn => exact ⟨hgrows, hto.leave hn⟩
  case block hblock hn => exact ⟨hgrows, hto.leaveBlock hblock hn⟩
  case added w p n b t hblock ht ho =>
    have hkept : ¬∃ l, Targets m settings.skipConstantInBounds t l := by
      rintro ⟨l, hl⟩
      cases ho.symm.trans hl.offset
    exact ⟨hgrows, hto.splice ht (treated_of_kept hkept) (Draft.splices_self hblock ht)⟩
  case visited w p n b t next w' hblock ht ho _ hvisit =>
    cases (visit_leads m settings hblock ht).ok hvisit
    case passed hmissed hd hr =>
      have hgrows' : w.Grows w' := .of_eq hd hr
      have hkept : ¬∃ l, Targets m settings.skipConstantInBounds t l := by
        rintro ⟨l, hl⟩
        exact hmissed l hl.lookup ((arrays_eq_some_iff hm).mpr hl.array)
      refine ⟨hgrows.trans hgrows',
        (hto.mono fun _ _ h => h.mono hgrows').splice ht (treated_of_kept hkept) ?_⟩
      rw [hd]
      exact Draft.splices_self hblock ht
    case replaced l x hl harray hoffset hr hs hg =>
      have htarget : Targets m settings.skipConstantInBounds t l := by
        refine ⟨?_, hl, (arrays_eq_some_iff hm).mp harray⟩
        obtain ⟨offset, ho⟩ := Option.isSome_iff_exists.mp ho
        rw [hoffset, ho, Option.getD_some]
      refine ⟨hgrows.trans hg, (hto.mono fun _ _ h => h.mono hg).splice ht ?_ hs⟩
      exact treated_of_replaces hb htarget (hr.mono (.of_eq rfl rfl) hgrows.bound)

theorem definition?_lt_bound (hm : m.IsAnalysed) {i : Instruction} (h : m.definition? id = some i) :
    id < m.header.bound := by
  obtain ⟨hmem, hid⟩ := hm.indexed.definition?_eq_some_iff.mp h
  exact hm.valid.below id (mem_filterMap.mpr ⟨i, hmem, hid⟩)

end DescriptorIndexing

namespace Pipeline

theorem analysed_of_new {words : List Word} {p : Pipeline} (h : new words = .ok p) :
    p.analysis.IsAnalysed ∧ Draft.ofBinary p.analysis.toBinary = .ok p.draft :=
  have ⟨hm, hd, _⟩ := of_new h
  ⟨Module.isAnalysed_of_ofWords hm, hd⟩

theorem run_replaces_targets {words : List Word} {p : Pipeline} {count : Nat} {w : Workspace}
    (s : Settings) (h : new words = .ok p) (hl : s.limit = 0)
    (hr : (DescriptorIndexing.check p.analysis s).run (limit? s) p.toWorkspace = .ok count w) :
    p.toWorkspace.Grows w
      ∧ Forall₂ (FunctionDraft.Reworked
          (DescriptorIndexing.Treated p.analysis s.skipConstantInBounds p.draft.bound w))
        p.draft.functions w.draft.functions := by
  obtain ⟨hm, hd⟩ := analysed_of_new h
  have hbound : p.draft.bound = p.analysis.header.bound :=
    congrArg Header.bound (Draft.ofBinary_header hd)
  rw [limit?_eq_none hl] at hr
  have hadvances := (DescriptorIndexing.visit_treats p.analysis s).advances
  obtain ⟨visits, q, hgoes, hends⟩ := (Check.run_eq_ok_iff hadvances).mp hr
  obtain ⟨hgrows, hto⟩ := hgoes.invariant
    (DescriptorIndexing.Follows p.analysis s.skipConstantInBounds p.toWorkspace)
    (.moved hm fun id i hi => hbound ▸ DescriptorIndexing.definition?_lt_bound hm hi)
    ⟨.of_eq rfl rfl, .start _ _⟩
  refine ⟨hgrows, hto.finish ?_⟩
  have hlength : w.draft.functions.length = p.draft.functions.length := hto.length
  rw [hlength]
  exact Check.le_of_ended hends

-- A fragment shader that looks up an image in an array of four, first by a signed input and then by
-- a constant.
def looksUpTwice : List Word :=
  [0x07230203, 0x00010500, 0, 20, 0,
   0x7000F, 4, 3, 0x6E69616D, 0, 4, 5, 0x40047, 4, 34, 1, 0x40047, 4, 33, 2,
   0x20013, 1, 0x30021, 2, 1, 0x40015, 6, 32, 0, 0x40015, 7, 32, 1, 0x30016, 8, 32, 0x90019, 9, 8,
   1, 0, 0, 0, 1, 0,
   0x4002B, 6, 10, 4, 0x4001C, 11, 9, 10, 0x40020, 12, 0, 11, 0x40020, 13, 0, 9, 0x40020, 14, 1, 7,
   0x4003B, 12, 4, 0, 0x4003B, 14, 5, 1, 0x4002B, 7, 15, 2,
   0x50036, 1, 3, 0, 2, 0x200F8, 16, 0x4003D, 7, 17, 5, 0x50041, 13, 18, 4, 17, 0x50041, 13,
   19, 4, 15,
   0x100FD, 0x10038]

theorem run_replaces_targets_looksUpTwice :
    ∃ p w, new looksUpTwice = .ok p
      ∧ let s : Settings := { descriptorIndexing := true, skipConstantInBounds := true }
        s.limit = 0
        ∧ (DescriptorIndexing.check p.analysis s).run (limit? s) p.toWorkspace = .ok 1 w
        ∧ (w.draft.functions.flatMap (code ·.blocks)).map Statement.op?
          = [some .load, some .bitcast, some .functionCall, some .accessChain, some .accessChain,
          some .return]
        ∧ p.toWorkspace.Grows w
        ∧ Forall₂ (FunctionDraft.Reworked
            (DescriptorIndexing.Treated p.analysis s.skipConstantInBounds p.draft.bound w))
          p.draft.functions w.draft.functions := by
  have hrun : ((new looksUpTwice).map fun p => decide (
      let q := p.step ((DescriptorIndexing.check p.analysis
        { descriptorIndexing := true, skipConstantInBounds := true }).run none)
      q.1 = .ok 1 ∧ (q.2.draft.functions.flatMap (code ·.blocks)).map Statement.op?
        = [some .load, some .bitcast, some .functionCall, some .accessChain, some .accessChain,
          some .return])) = .ok true := by
    decide +kernel
  obtain ⟨p, h, hcount, hcode⟩ := exists_ok_of_decide hrun
  have hok := step_ok Leads.self hcount
  exact ⟨p, _, h, rfl, hok, hcode, run_replaces_targets _ h rfl hok⟩

end Pipeline
end Shader
