import Shader.Proofs.Draft.Readback
import Shader.Proofs.Instrument.Check
import Shader.Proofs.Link.Module

namespace Shader

open List

theorem Op.layoutSection_of_hasResult {op : Op} (h : op.outcome.hasResult = true) :
    op = .extInstImport ∨ op = .string ∨ op = .decorationGroup ∨ op.layoutSection = .globals := by
  unfold layoutSection
  split <;> first | exact absurd h (by decide) | simp

namespace Draft

variable {h host : Draft} {r : HelperRequest} {function : Id}

theorem findFunction?_spec (hw : h.WellFormed) {name : String}
    (hf : h.findFunction? name = some function) :
    ∃ f ∈ h.functions, f.definition.resultId = some function := by
  simp only [findFunction?, Option.or_eq_some_iff, Option.filter_eq_some_iff, any_eq_true,
    beq_iff_eq] at hf
  obtain ⟨_, f, hmem, heq⟩ | ⟨_, hf⟩ := hf
  · exact ⟨f, hmem, heq ▸ (hw.functions f hmem).resultId⟩
  · split at hf
    case h_1 f hfs =>
      have hmem : f ∈ h.functions := by simp [hfs]
      exact ⟨f, hmem, Option.some.inj hf ▸ (hw.functions f hmem).resultId⟩
    case h_2 => cases hf

theorem ne_function_of_import (hw : h.WellFormed) (hd : (h.definitions.map Prod.fst).Nodup)
    {name : String} (hf : h.findFunction? name = some function) {x : Id}
    (hx : x ∈ h.imports.filterMap Statement.resultId) :
    x ≠ function := by
  have ⟨f, hmem, hid⟩ := findFunction?_spec hw hf
  have hu := (Linking.unsettled_takenOver hd).left
  simp only [Linking.takenOver, append_assoc, filterMap_append (l := h.imports)] at hu
  refine (nodup_append.mp hu).right.right x hx function ?_
  refine mem_filterMap.mpr ⟨f.definition, ?_, hid⟩
  simp only [mem_append, mem_flatMap]
  exact .inr (.inr (.inr ⟨f, hmem, by simp [FunctionDraft.statements]⟩))

theorem linked_start (function : Id) (hb : r.function < host.bound) :
    Linked host r.function [] [] [] ((∅ : Renaming).insert function r.function) host := by
  have hget {x y : Id} (hx : ((∅ : Renaming).insert function r.function)[x]? = some y) :
      function = x ∧ r.function = y := by
    rw [Std.TreeMap.getElem?_insert] at hx
    split at hx <;> simp_all
  refine ⟨UInt32.le_refl _, fun x y hx _ => ?_, fun x x' y hx hx' _ _ => ?_, Subset.refl _,
    .refl host _, [(function, r.function)], ?_, ?_⟩
  · have ⟨_, hy⟩ := hget hx
    exact ⟨.inl hy.symm, hy ▸ hb⟩
  · exact (hget hx).left.symm.trans (hget hx').left
  · intro x y hx
    have ⟨hx, hy⟩ := hget hx
    simp [hx, hy]
  · exact fun base rest hl => hl

theorem link_leads (hw : h.WellFormed) (hd : (h.definitions.map Prod.fst).Nodup)
    (hb : r.function < host.bound) :
    Leads (link r h) host (fun _ d => ∃ function m kept found, h.findFunction? r.name
      = some function
      ∧ m[function]? = some r.function ∧ Linking.HelperLinked host r.function h kept found m d)
      (Abandoned host r.function) := by
  have hstart (function : Id) := linked_start function hb
  unfold link
  split
  case h_2 => exact .throw (hstart 0).abandoned
  case h_1 function hf =>
    split
    case isTrue => exact .throw (hstart 0).abandoned
    case isFalse =>
      have hm : ∀ x ∈ h.imports.filterMap Statement.resultId,
          ((∅ : Renaming).insert function r.function)[x]? = none := by
        intro x hx
        have hne := ne_function_of_import hw hd hf hx
        simp [hne.symm]
      have hl := Linking.helper_leads r.name hw hd (hstart function) hm
      refine .bind <| Leads.weaken hl fun p d ⟨he, kept, found, hl⟩ => .pure ?_
      exact ⟨function, p.2, kept, found, hf, he function r.function (by simp), hl⟩

theorem mem_takenOver (hw : h.WellFormed) {s : Statement} {x : Id} (hs : s ∈ h.statements)
    (hx : s.resultId = some x) : s ∈ h.imports ++ h.debug.filter (·.is .string) ++ h.globals
      ++ h.annotations.filter (!·.isLinkageAttributes)
      ++ h.functions.flatMap FunctionDraft.statements := by
  simp only [mem_append]
  rw [statements, mem_append] at hs
  cases hs
  case inr hs => exact .inr hs
  case inl hs =>
    obtain ⟨sec, hs⟩ := mem_declarations_iff.mp hs
    obtain ⟨hform, hb⟩ := hw.sections sec s hs
    have hr := hform.result
    cases ho : s.op?
    case none => simp [Statement.outcome, ho, hx, Outcome.hasResult] at hr
    case some op =>
      have hsec : op.layoutSection = sec := by
        unfold Statement.BelongsTo Statement.section? at hb
        split at hb <;> simp_all
      rw [Statement.outcome, ho, hx] at hr
      obtain rfl | rfl | rfl | hg := Op.layoutSection_of_hasResult hr.symm
      · subst hsec
        exact .inl (.inl (.inl (.inl hs)))
      · subst hsec
        exact .inl (.inl (.inl (.inr (mem_filter.mpr ⟨hs, by simp [Statement.is, ho]⟩))))
      · subst hsec
        exact .inl (.inr (mem_filter.mpr ⟨hs,
          by simp [Statement.isLinkageAttributes, Statement.is, ho]⟩))
      · obtain rfl := hg.symm.trans hsec
        exact .inl (.inl (.inr hs))

end Draft

namespace Linking.HelperLinked

variable {host h d : Draft} {request : Id} {kept found : List Statement} {m : Renaming}

theorem mem_globals (hl : HelperLinked host request h kept found m d) {s : Statement}
    (hs : s ∈ h.globals) :
    s ∈ kept ∨ s ∈ found :=
  mem_append.mp (hl.parts.mem_iff.mpr hs)

theorem defined (hl : HelperLinked host request h kept found m d) (hw : h.WellFormed)
    {s : Statement} {x : Id} (hs : s ∈ h.statements) (hx : s.resultId = some x) :
    ∃ y, m[x]? = some y := by
  have hmem : x ∈ s.ids := Statement.mem_ids_iff.mpr (.inr (.inl hx))
  have hc := hl.covers s
  have ht := Draft.mem_takenOver hw hs hx
  simp only [mem_append] at hc ht
  obtain (((ht | ht) | ht) | ht) | ht := ht
  · have ⟨x', y, _, hx', hy, _⟩ := hl.imported s ht
    obtain rfl : x = x' := Option.some.inj (hx.symm.trans hx')
    exact ⟨y, hy⟩
  · exact hc (.inl (.inl (.inl ht))) x hmem
  · cases hl.mem_globals ht
    case inl hk => exact hc (.inl (.inl (.inr hk))) x hmem
    case inr hf => exact (hl.sharing s hf).left x hmem
  · exact hc (.inl (.inr ht)) x hmem
  · exact hc (.inr ht) x hmem

end Linking.HelperLinked

def Draft.ids (d : Draft) : List Id :=
  d.statements.filterMap Statement.resultId

theorem Draft.map_fst_definitions (d : Draft) : d.definitions.map Prod.fst = d.ids :=
  map_fst_flatMap_defines d.statements

-- The ids of `h` that stand for something the module has: its imports, and its globals except for
-- those in `kept`, which are declared.
def sharedIds (h : Draft) (kept : List Statement) : List Id :=
  (h.imports ++ h.globals.filter (· ∉ kept)).filterMap Statement.resultId

-- The module `h` is linked into `host`, which gives `d`, and its ids become those that `s` says.
structure LinkedBy (s : Id → Id) (kept : List Statement) (h host d : Draft) : Prop where
  functions    : d.functions = host.functions ++ h.functions.map (FunctionDraft.rename s)
  successors   : ∀ f ∈ h.functions, ∀ b ∈ f.blocks, (b.rename s).successors = b.successors.map s
  sublist      : kept <+ h.globals
  globals      : d.globals = host.globals ++ kept.map (Statement.rename s)
  shared       : ∀ g ∈ h.globals, g ∉ kept → ∃ t ∈ d.globals, { t with origin := none } = g.rename s
  imported     : ∀ i ∈ h.imports, ∃ t ∈ d.imports, t.resultId = i.resultId.map s
    ∧ t.operands = i.operands
  injective    : ∀ x ∈ h.ids, ∀ y ∈ h.ids, x ∉ sharedIds h kept → y ∉ sharedIds h kept →
    s x = s y → x = y
  fresh        : ∀ x ∈ h.ids, x ∉ sharedIds h kept → s x ∉ host.ids
  header       : { d.header with bound := host.bound } = host.header
  capabilities : host.capabilities <+: d.capabilities
  extensions   : host.extensions <+: d.extensions
  imports      : host.imports <+: d.imports
  memoryModel  : d.memoryModel = host.memoryModel
  entryPoints  : d.entryPoints = if host.version.atLeast 1 4 then host.entryPoints.map fun e =>
      { e with operands := e.operands
        ++ (kept.filter Linking.isModuleVariable).filterMap (·.resultId.map s) }
    else host.entryPoints
  modes        : d.modes = host.modes
  debug        : d.debug = host.debug ++ (h.debug.filter (·.is .string)).map (Statement.rename s)
  annotations  : d.annotations = host.annotations
    ++ (h.annotations.filter (!·.isLinkageAttributes)).map (Statement.rename s)

namespace Linking.HelperLinked

variable {host h d : Draft} {request : Id} {kept found : List Statement} {m : Renaming}

-- The id that was requested is placed. Ids that the helper mentions without defining them are held.
theorem ledger (hl : HelperLinked host request h kept found m d) {base : Opening}
    {held : List Definition} (hb : Ledger base host ((request, none) :: held)) :
    ∃ lost : List Id, Ledger base d (lost.map (·, none) ++ held) := by
  obtain ⟨waiting, _, hd⟩ := hl.linked.ledger
  exact ⟨waiting.map Prod.snd, by simpa [Function.comp_def] using hd base held hb⟩

theorem not_mem_found (hl : HelperLinked host request h kept found m d)
    (hd : (h.definitions.map Prod.fst).Nodup) {x : Id} (hx : x ∉ sharedIds h kept) :
    x ∉ found.filterMap Statement.resultId ++ h.imports.filterMap Statement.resultId := by
  simp only [sharedIds, filterMap_append, mem_append, not_or] at hx
  rw [mem_append, not_or]
  refine ⟨fun hf => ?_, hx.left⟩
  have ⟨g, hg, hid⟩ := mem_filterMap.mp hf
  have hglobal : g ∈ h.globals := hl.parts.subset (mem_append_right _ hg)
  by_cases hk : g ∈ kept
  case neg =>
    exact hx.right (mem_filterMap.mpr ⟨g, mem_filter.mpr ⟨hglobal, by simpa using hk⟩, hid⟩)
  case pos =>
    have hsub : h.globals <+ takenOver h :=
      ((sublist_append_right ..).trans (sublist_append_left ..)).trans (sublist_append_left ..)
    have hu := (unsettled_takenOver hd).left.sublist (hsub.filterMap Statement.resultId)
    rw [← (hl.parts.filterMap _).nodup_iff, filterMap_append] at hu
    exact (nodup_append.mp hu).right.right x (mem_filterMap.mpr ⟨g, hk, hid⟩) x hf rfl

theorem not_mem_ids (hl : HelperLinked host request h kept found m d)
    (hd : (h.definitions.map Prod.fst).Nodup) (hs : host.Sound) (hr : request ∉ host.ids) {x y : Id}
    (hy : m[x]? = some y) (hn : x ∉ sharedIds h kept) :
    y ∉ host.ids := by
  cases (hl.linked.fresh x y hy (hl.not_mem_found hd hn)).left
  case inl heq => exact heq ▸ hr
  case inr hle =>
    intro hmem
    rw [← host.map_fst_definitions] at hmem
    have ⟨p, hp, heq⟩ := mem_map.mp hmem
    exact UInt32.not_lt.mpr hle (heq ▸ hs.below p hp)

theorem linkedBy (hl : HelperLinked host request h kept found m d) (hw : h.WellFormed)
    (hd : (h.definitions.map Prod.fst).Nodup) (hs : host.Sound) (hr : request ∉ host.ids) :
    LinkedBy m.image kept h host d where
  functions := hl.functions
  successors _ _ b _ := b.successors_rename m.image
  sublist := hl.sublist
  globals := hl.globals
  shared g hg hk := ((hl.sharing g ((hl.mem_globals hg).resolve_left hk)).right)
  imported i hi := by
    have ⟨x, y, t, hx, hy, ht, hid, ho⟩ := hl.imported i hi
    exact ⟨t, ht, by rw [hid, hx, Option.map_some, Renaming.image_of_getElem? hy], ho⟩
  -- What was found in the host may share a name; everything else has its own.
  injective x hx y hy hnx hny heq := by
    have ⟨s, hs, hsx⟩ := mem_filterMap.mp hx
    have ⟨t, ht, hty⟩ := mem_filterMap.mp hy
    have ⟨z, hz⟩ := hl.defined hw hs hsx
    have ⟨w, hw⟩ := hl.defined hw ht hty
    rw [Renaming.image_of_getElem? hz, Renaming.image_of_getElem? hw] at heq
    exact hl.linked.injective x y z hz (heq ▸ hw) (hl.not_mem_found hd hnx)
      (hl.not_mem_found hd hny)
  fresh x hx hn := by
    have ⟨s, hst, hsx⟩ := mem_filterMap.mp hx
    have ⟨y, hy⟩ := hl.defined hw hst hsx
    rw [Renaming.image_of_getElem? hy]
    exact hl.not_mem_ids hd hs hr hy hn
  header := hl.header
  capabilities := hl.capabilities
  extensions := hl.extensions
  imports := hl.imports
  memoryModel := hl.memoryModel
  entryPoints := by
    rw [hl.entryPoints, Linking.listVariables]
    split <;> rfl
  modes := hl.modes
  debug := hl.debug
  annotations := hl.annotations

end Linking.HelperLinked

namespace Instrumenting

theorem readHelper_leads {name : String} {words : List Word} {w : Workspace}
    {failed : Workspace → Prop} (hf : ∀ notes, failed { w with notes := w.notes ++ notes }) :
    Leads (readHelper name words) w (fun h w' => (∃ m, Module.ofWords words = .ok m
      ∧ Draft.ofBinary m.toBinary = .ok h) ∧ ∃ notes, w' = { w with notes := w.notes ++ notes })
        failed := by
  have hw : failed w := by simpa using hf []
  unfold readHelper
  split
  case h_1 => exact .throw hw
  case h_2 => exact .throw hw
  case h_3 m hm =>
    refine .bind <| .modify ?_
    split
    case h_1 h hh => exact .pure ⟨⟨m, hm, hh⟩, m.notes, rfl⟩
    case h_2 => exact .throw (hf m.notes)

theorem linkRequest_leads {library : String → Option (List Word)} {r : HelperRequest}
    {w : Workspace} (hb : r.function < w.draft.bound) :
    Leads (linkRequest library r) w (fun _ w' => w'.requests = w.requests
      ∧ ∃ words m h, library r.name = some words ∧ Module.ofWords words = .ok m
        ∧ Draft.ofBinary m.toBinary = .ok h ∧ ∃ function s kept found,
          h.findFunction? r.name = some function ∧ s[function]? = some r.function
          ∧ Linking.HelperLinked w.draft r.function h kept found s w'.draft)
      (fun w' => w'.requests = w.requests ∧ Abandoned w.draft r.function w'.draft) := by
  have hf : Abandoned w.draft r.function w.draft :=
    ⟨UInt32.le_refl _, fun _ _ hl => ⟨[_], hl⟩, .refl ..⟩
  unfold linkRequest
  split
  case h_2 => exact .throw ⟨rfl, hf⟩
  case h_1 words hwords =>
    refine .bind <| .modify ?_
    refine .bind <| (readHelper_leads fun _ => ⟨rfl, hf⟩).weaken
      fun h w₁ ⟨⟨m, hm, hh⟩, notes, hw₁⟩ => ?_
    have hv := Binary.read_valid (Module.read_of_ofWords hm)
    subst hw₁
    refine edit_leads <| (Draft.link_leads (Draft.ofBinary_wellFormed hh hv)
      (Draft.ofBinary_sound hh hv).nodup hb).mono
      (fun _ d ⟨function, s, kept, found, hlinked⟩ => ?_) fun d ha => ⟨rfl, ha⟩
    exact ⟨rfl, words, m, h, hwords, hm, hh, function, s, kept, found, hlinked⟩

end Instrumenting

theorem linkRequest_renames {library : String → Option (List Word)} {r : HelperRequest}
    {w w' : Workspace} (hs : w.draft.Sound) (hb : r.function < w.draft.bound)
    (hn : r.function ∉ w.draft.ids) (hl : Instrumenting.linkRequest library r w = .ok () w') :
    ∃ words m h function, library r.name = some words ∧ Module.ofWords words = .ok m
      ∧ Draft.ofBinary m.toBinary = .ok h ∧ h.findFunction? r.name = some function
      ∧ ∃ s kept, s function = r.function ∧ LinkedBy s kept h w.draft w'.draft := by
  have ⟨_, words, m, h, hwords, hm, hh, function, s, kept, found, hf, hr, hlinked⟩ :=
    (Instrumenting.linkRequest_leads hb).ok hl
  have hv := Binary.read_valid (Module.read_of_ofWords hm)
  refine ⟨words, m, h, function, hwords, hm, hh, hf, s.image, kept, Renaming.image_of_getElem? hr,
    ?_⟩
  exact hlinked.linkedBy (Draft.ofBinary_wellFormed hh hv) (Draft.ofBinary_sound hh hv).nodup hs hn

-- A helper of one function, which returns true.
def permit : List Word :=
  [0x07230203, 0x00010500, 0, 6, 0,
   0x20014, 1, 0x30021, 2, 1, 0x30029, 1, 5,
   0x50036, 1, 3, 0, 2, 0x200F8, 4, 0x200FE, 5, 0x10038]

theorem linkRequest_renames_permit :
    let host : Draft := ⟨⟨1, 5⟩, 0, 3, 0, [], [], [], [], [], [], [], [],
      [.new .typeBool none (some 1) []], [], ∅⟩
    ∃ w', Instrumenting.linkRequest (fun _ => some permit) ⟨"permit", 2⟩ { draft := host }
      = .ok () w'
      ∧ w'.draft.ids = [1, 3, 4, 2, 5]
      ∧ ∃ m h function, Module.ofWords permit = .ok m
        ∧ Draft.ofBinary m.toBinary = .ok h ∧ h.findFunction? "permit" = some function
        ∧ ∃ s kept, s function = 2 ∧ LinkedBy s kept h host w'.draft := by
  intro host
  have hbelow : (host.definitions.all (·.1 < host.bound)) = true := by decide
  have hs : host.Sound := ⟨by decide, by simpa only [all_eq_true, decide_eq_true_eq] using hbelow⟩
  have hids : (final? (Instrumenting.linkRequest (fun _ => some permit) ⟨"permit", 2⟩)
      { draft := host }).map (·.draft.ids) = some [1, 3, 4, 2, 5] := by decide +kernel
  obtain ⟨w', hw, hids⟩ := Option.map_eq_some_iff.mp hids
  obtain ⟨_, hl⟩ := final?_eq_some_iff.mp hw
  have ⟨words, m, h, function, hwords, hm, hh, hf, hr⟩ :=
    linkRequest_renames hs (by decide) (by decide) hl
  cases hwords
  exact ⟨w', hl, hids, m, h, function, hm, hh, hf, hr⟩

end Shader
