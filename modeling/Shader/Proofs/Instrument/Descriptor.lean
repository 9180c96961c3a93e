import Shader.Proofs.Instrument.Failure
import Shader.Proofs.Instrument.Piece
import Shader.Proofs.Instrument.Visit
import Shader.Proofs.Stream.Framing

namespace Shader

open List

namespace Draft

variable {d d' : Draft} {p : Position} {b : Block} {t : Statement} {inserted : List Statement}
  {id : Id}

theorem splices_insertBefore (hb : d.block? p = some b) (ht : b.body[p.index]? = some t)
    (inserted : List Statement) (id : Id) :
    d.Splices p b ⟨inserted, { t with operands := t.operands.set 1 id }⟩
      ((d.replaceOperand p 1 id).insertBefore p inserted) := by
  obtain ⟨f, hf, hb⟩ := Option.bind_eq_some_iff.mp hb
  have ⟨hi, _⟩ := List.getElem?_eq_some_iff.mp ht
  have hbody : (b.body.modify p.index fun s => { s with operands := s.operands.set 1 id })
      = b.body.take p.index ++ { t with operands := t.operands.set 1 id }
        :: b.body.drop (p.index + 1) := by
    rw [modify_eq_set_of_getElem? ht, set_eq_take_append_cons_drop, if_pos hi]
  have hlen : (b.body.take p.index).length = p.index := by
    rw [length_take]
    omega
  refine ⟨f, hf, hb, ?_⟩
  simp only [insertBefore, replaceOperand, onBody, onFunction]
  rw [modify_modify_eq, modify_eq_set_of_getElem? hf]
  congr 1
  simp only [Function.comp_apply, FunctionDraft.mk.injEq, true_and, and_true]
  rw [modify_modify_eq, modify_eq_set_of_getElem? hb]
  congr 1
  simp only [Function.comp_apply, hbody, Block.mk.injEq, true_and]
  rw [take_left' hlen, drop_left' hlen]
  simp [Piece.code]

theorem Splices.turns (h : d.Splices p b ⟨inserted, { t with operands := t.operands.set 1 id }⟩ d')
    (ht : b.body[p.index]? = some t)
    (ho : ∃ op ∈ [Op.accessChain, Op.inBoundsAccessChain], t.op? = some op)
    (hg : ∀ s ∈ d.globals, s ∈ d'.globals) (hb : d.bound ≤ d'.bound) :
    (Edit.mk inserted id none).Turns d p b t d' := by
  obtain ⟨f, hf, hblock, hset⟩ := h
  have ⟨hk, _⟩ := List.getElem?_eq_some_iff.mp hblock
  refine ⟨⟨f, _, hf, ⟨hblock, ht, ho, by simp, rfl, [], ?_⟩, hset⟩, hg, hb⟩
  have hid : Block.reparent [] b.label (Edit.parent ⟨inserted, id, none⟩) = fun c => c := by
    funext c
    simp [Block.reparent]
  rw [hid, map_id', set_eq_take_append_cons_drop, if_pos hk]
  simp [Edit.blocks, Edit.target, Piece.code]

end Draft

-- `w'` has more ids, declarations and requests than `w`. Other than that only the code may differ.
structure Workspace.Grows (w w' : Workspace) : Prop where
  draft    : { w.draft with functions := w'.draft.functions }.Extends w'.draft
  requests : w.requests <+: w'.requests
  bound    : w.draft.bound ≤ w'.draft.bound

namespace Workspace.Grows

variable {w w' w'' : Workspace}

theorem of_eq (hd : w'.draft = w.draft) (hr : w'.requests = w.requests) : w.Grows w' where
  draft := hd ▸ ⟨prefix_rfl, prefix_rfl, rfl⟩
  requests := hr ▸ prefix_rfl
  bound := hd ▸ UInt32.le_refl _

theorem trans (h : w.Grows w') (h' : w'.Grows w'') : w.Grows w'' where
  draft := ⟨h.draft.capabilities.trans h'.draft.capabilities,
      h.draft.globals.trans h'.draft.globals, by
    rw [h'.draft.rest, h.draft.rest]⟩
  requests := h.requests.trans h'.requests
  bound := UInt32.le_trans h.bound h'.bound

end Workspace.Grows

namespace DescriptorIndexing

open Instrumenting Draft

structure Lookup where
  offset : Nat
  base   : Id
  array  : DescriptorArray
  index  : Id
  signed : Bool

def InBounds (m : Module) (length : Nat) (index : Id) : Prop :=
  ∃ i value, m.definition? index = some i ∧ i.is .constant ∧ i.word? 3 = some value
    ∧ value.toNat < length

-- The access chain `s` does the lookup, by an index of 32 bits. With `skip` this does not count if
-- the index is known to be in bounds.
structure Lookup.DoneBy (l : Lookup) (m : Module) (skip : Bool) (s : Statement) : Prop where
  chain    : s.is .accessChain ∨ s.is .inBoundsAccessChain
  operands : ∃ rest, s.operands = l.base :: l.index :: rest
  type     : ∃ type, m.typeOf? l.index = some type ∧ type.is .typeInt ∧ type.word? 2 = some 32
    ∧ (l.signed ↔ type.word? 3 = some 1)
  bounds   : skip → ¬InBounds m l.array.length l.index

-- The index as it is given to the helper: a signed one is converted to the type `word` before.
def Lookup.Converts (l : Lookup) (word index : Id) (cast : List Statement) : Prop :=
  if l.signed then cast = [.new .bitcast (some word) (some index) [l.index]] else index = l.index
    ∧ cast = []

def Lookup.Passes (l : Lookup) (d : Draft) (index : Id) (arguments : List Id) : Prop :=
  ∃ offset set binding length, arguments = [offset, set, binding, index, length]
    ∧ d.IsWord offset (.ofNat l.offset) ∧ d.IsWord set l.array.set
    ∧ d.IsWord binding l.array.binding
    ∧ d.IsWord length (.ofNat l.array.length)

-- The statement `s` gets the result of the helper as its index. The id of that is new, from `bound`
-- on.
def Lookup.Replaces (l : Lookup) (bound : Id) (w : Workspace) (s : Statement) (x : Piece) : Prop :=
  ∃ word function index arguments safe cast, w.draft.Declared .typeInt none word [32, 0]
    ∧ ⟨helper, function⟩ ∈ w.requests ∧ l.Converts word index cast
    ∧ l.Passes w.draft index arguments
    ∧ bound ≤ safe ∧ safe < w.draft.bound
    ∧ x.inserted = cast ++ [.new .functionCall (some word) (some safe) (function :: arguments)]
    ∧ x.statement = { s with operands := s.operands.set 1 safe }

inductive Handles (m : Module) (skip : Bool) (arrays : Std.TreeMap Id DescriptorArray)
    (w : Workspace) (p : Position) (b : Block) (t : Statement) : Option Position → Workspace → Prop
  | passed {w'} : w'.draft = w.draft → w'.requests = w.requests →
    (∀ l : Lookup, l.DoneBy m skip t → arrays[l.base]? ≠ some l.array) →
    Handles m skip arrays w p b t none w'
  | replaced {w'} {l : Lookup} {x : Piece} : l.DoneBy m skip t → arrays[l.base]? = some l.array →
    l.offset = t.origin.getD 0 → l.Replaces w.draft.bound w' t x → w.draft.Splices p b x w'.draft →
    w.Grows w' →
    Handles m skip arrays w p b t (some { p with index := p.index + x.code.length }) w'

variable {m : Module} {l : Lookup} {d d' : Draft} {w w' : Workspace} {p : Position} {b : Block}
  {t : Statement} {type : Instruction} {index : Id}

theorem bitWidth?_eq_word_iff (h : type.is .typeInt) :
    type.bitWidth? = .ok (some 32) ↔ type.word? 2 = some 32 := by
  have ho : type.op? = some .typeInt := by simpa [Instruction.is] using h
  simp only [Instruction.bitWidth?, ho, Instruction.word]
  cases type.word? 2
  case none => simp [bind, Except.bind]
  case some w => simp [bind, Except.bind, pure, Except.pure, ← UInt32.toNat_inj]

theorem indexType?_eq_some_iff : indexType? m index = .ok (some type)
    ↔ m.typeOf? index = some type ∧ type.is .typeInt ∧ type.word? 2 = some 32 := by
  unfold indexType?
  constructor
  case mp =>
    intro h
    split at h
    case h_2 => cases h
    case h_1 type' ht =>
      obtain ⟨width, hw, h⟩ := ok_of_bind h
      split at h
      case isFalse => cases h
      case isTrue hi =>
        cases h
        obtain ⟨hint, rfl⟩ : type.is .typeInt ∧ width = some 32 := by simpa using hi
        exact ⟨ht, hint, (bitWidth?_eq_word_iff hint).mp hw⟩
  case mpr =>
    rintro ⟨ht, hi, hw⟩
    simp [ht, hi, (bitWidth?_eq_word_iff hi).mpr hw, bind, Except.bind, pure, Except.pure]

theorem constantValue?_eq_word_iff {i : Instruction} {value : Word} (h : i.is .constant) :
    i.constantValue? = .ok (some value) ↔ i.word? 3 = some value := by
  have ho : i.op? = some .constant := by simpa [Instruction.is] using h
  simp only [Instruction.constantValue?, ho, Instruction.word]
  cases i.word? 3
  case none => simp [bind, Except.bind]
  case some w => simp [bind, Except.bind, pure, Except.pure]

theorem isInBounds_eq_true_iff {array : DescriptorArray} :
    isInBounds m array index = .ok true ↔ InBounds m array.length index := by
  unfold isInBounds
  constructor
  case mp =>
    intro h
    split at h
    case h_2 => cases h
    case h_1 i hi =>
      obtain ⟨hd, hc⟩ := Option.filter_eq_some_iff.mp hi
      obtain ⟨value, hv, h⟩ := ok_of_bind h
      obtain ⟨value, rfl, hlt⟩ := (Option.any_eq_true ..).mp (Except.ok.inj h)
      exact ⟨i, value, hd, hc, (constantValue?_eq_word_iff hc).mp hv, by simpa using hlt⟩
  case mpr =>
    rintro ⟨i, value, hd, hc, hv, hlt⟩
    rw [Option.filter_eq_some_iff.mpr ⟨hd, hc⟩]
    simp [(constantValue?_eq_word_iff hc).mpr hv, hlt, bind, Except.bind, pure, Except.pure]

theorem unsigned_widens (word : Id) (hs : l.signed ↔ type.word? 3 = some 1) :
    Leads (unsigned type word l.index) d (fun r d' => d.Widens d' ∧ l.Converts word r.1 r.2)
      fun _ => True := by
  unfold unsigned Lookup.Converts
  split
  case isTrue ht =>
    refine .bind <| (Draft.allocateTyped_widens word).weaken fun cast d' ⟨hd, _⟩ => .pure ⟨hd, ?_⟩
    rw [if_pos (hs.mpr (by simpa using ht))]
  case isFalse hn =>
    refine .pure ⟨.refl d, ?_⟩
    rw [if_neg fun h => hn (by simpa using hs.mp h)]
    exact ⟨rfl, rfl⟩

theorem arguments_widens (l : Lookup) (index : Id) :
    Leads (arguments l.array l.offset index) d (fun r d' => d.Widens d' ∧ l.Passes d' index r)
      fun _ => True := by
  refine .bind <| (Draft.constantWord_widens _).weaken fun offset d₁ ⟨h₁, ho⟩ => ?_
  refine .bind <| (Draft.constantWord_widens _).weaken fun set d₂ ⟨h₂, hs⟩ => ?_
  refine .bind <| (Draft.constantWord_widens _).weaken fun binding d₃ ⟨h₃, hb⟩ => ?_
  refine .bind <| (Draft.constantWord_widens _).weaken fun length d₄ ⟨h₄, hl⟩ => .pure ?_
  have h₂₄ := (h₂.trans h₃).trans h₄
  exact ⟨h₁.trans h₂₄, offset, set, binding, length, rfl, ho.mono h₂₄.globals,
    hs.mono (h₃.trans h₄).globals, hb.mono h₄.globals, hl⟩

theorem Lookup.Passes.mono {arguments : List Id} (h : l.Passes d index arguments)
    (hg : ∀ s ∈ d.globals, s ∈ d'.globals) : l.Passes d' index arguments := by
  obtain ⟨offset, set, binding, length, harg, h₁, h₂, h₃, h₄⟩ := h
  exact ⟨offset, set, binding, length, harg, h₁.mono hg, h₂.mono hg, h₃.mono hg, h₄.mono hg⟩

theorem Lookup.Replaces.mono {bound bound' : Id} {x : Piece} (h : l.Replaces bound w t x)
    (hg : w.Grows w') (hb : bound' ≤ bound) : l.Replaces bound' w' t x := by
  obtain ⟨word, function, index, arguments, safe, cast, hword, hr, hc, hp, hs, hlt, hx⟩ := h
  have hglobals : ∀ s ∈ w.draft.globals, s ∈ w'.draft.globals := hg.draft.globals.subset
  exact ⟨word, function, index, arguments, safe, cast, hword.mono hglobals, hg.requests.subset hr,
    hc, hp.mono hglobals, UInt32.le_trans hb hs, UInt32.lt_of_lt_of_le hlt hg.bound, hx⟩

theorem instrument_extends (p : Position) (type : Instruction) (array : DescriptorArray)
    (offset : Nat) (index : Id) :
    Leads (instrument p type array offset index) w (fun _ w' =>
      { w.draft with functions := w'.draft.functions }.Extends w'.draft
        ∧ w.requests <+: w'.requests)
      fun _ => True := by
  refine .bind <| ((edit_within (typeInt_within 32 false)).leads w).weaken fun word w₁ h₁ => ?_
  refine .bind <| ((edit_within (unsigned_within type word index)).leads w₁).weaken
    fun (index, cast) w₂ h₂ => ?_
  refine .bind <| ((edit_within (arguments_within array offset index)).leads w₂).weaken
    fun arguments w₃ h₃ => ?_
  refine .bind <| ((callHelper_within helper word arguments).leads w₃).weaken
    fun (safe, call) w₄ h₄ => ?_
  have h : w.Extends w₄ :=
    IsTrans.trans _ _ _ (IsTrans.trans _ _ _ (IsTrans.trans _ _ _ h₁ h₂) h₃) h₄
  refine .bind <| .modify <| .pure ⟨⟨h.draft.capabilities, h.draft.globals, ?_⟩, h.requests⟩
  dsimp only [insertBefore, replaceOperand, onBody, onFunction]
  rw [h.draft.rest]

theorem instrument_replaces (hb : w.draft.block? p = some b) (ht : b.body[p.index]? = some t)
    (hs : l.signed ↔ type.word? 3 = some 1) :
    Leads (instrument p type l.array l.offset l.index) w (fun q w' => ∃ x,
      q = { p with index := p.index + x.code.length } ∧ l.Replaces w.draft.bound w' t x
        ∧ w.draft.Splices p b x w'.draft ∧ w.Grows w') fun _ => True := by
  have hextends := instrument_extends (w := w) p type l.array l.offset l.index
  have hreplaces : Leads (instrument p type l.array l.offset l.index) w (fun q w' => ∃ x,
      q = { p with index := p.index + x.code.length } ∧ l.Replaces w.draft.bound w' t x
        ∧ w.draft.Splices p b x w'.draft ∧ w.draft.bound ≤ w'.draft.bound) fun _ => True := by
    refine .bind <| (edit_widens (Draft.typeInt_widens 32 false)).weaken
      fun word w₁ ⟨h₁, hword⟩ => ?_
    refine .bind <| (edit_widens (unsigned_widens word hs)).weaken
      fun (index, cast) w₂ ⟨h₂, hcast⟩ => ?_
    refine .bind <| (edit_widens (arguments_widens l index)).weaken
      fun arguments w₃ ⟨h₃, hpass⟩ => ?_
    refine .bind <| (callHelper_widens helper word arguments).weaken
      fun (safe, call) w₄ ⟨h₄, hid, function, hr, hcall⟩ => ?_
    dsimp only at hcast hid hcall
    subst hcall
    have hw₃ := (h₁.trans h₂).trans h₃
    have hw := hw₃.trans h₄
    have hb₄ : w₄.draft.block? p = some b := by rwa [Draft.block?, hw.draft.functions]
    let call := Statement.new .functionCall (some word) (some safe) (function :: arguments)
    obtain ⟨f, hf, hblock, hset⟩ := splices_insertBefore hb₄ ht (cast ++ [call]) safe
    rw [hw.draft.functions] at hf hset
    refine .bind <| .modify <| .pure ⟨⟨cast ++ [call], _⟩, ?_, ?_, ⟨f, hf, hblock, hset⟩,
      hw.draft.bound⟩
    · simp [Piece.code, Nat.add_assoc]
    · exact ⟨word, function, index, arguments, safe, cast,
        hword.mono ((h₂.trans h₃).trans h₄).draft.globals, hr, hcast, hpass.mono h₄.draft.globals,
        UInt32.le_trans hw₃.draft.bound hid.left, hid.right, rfl, rfl⟩
  refine (hreplaces.and hextends).mono ?_ fun _ _ => trivial
  rintro q w' ⟨⟨x, hq, hr, hsplices, hbound⟩, hdraft, hrequests⟩
  exact ⟨x, hq, hr, hsplices, hdraft, hrequests, hbound⟩

theorem Lookup.DoneBy.of_operands {skip : Bool} {base : Id} {rest : List Word}
    (h : l.DoneBy m skip t) (ho : t.operands = base :: index :: rest) :
    base = l.base ∧ index = l.index := by
  obtain ⟨_, hrest⟩ := h.operands
  cases ho.symm.trans hrest
  exact ⟨rfl, rfl⟩

theorem visit_leads (m : Module) (s : Settings) (hb : w.draft.block? p = some b)
    (ht : b.body[p.index]? = some t) :
    Leads ((check m s).visit p) w (Handles m s.skipConstantInBounds (arrays m) w p b t)
      fun _ => True := by
  have hat : w.draft.statement? p = some t := by rw [Draft.statement?, hb, Option.bind_some, ht]
  refine .bind <| .get ?_
  rw [hat]
  dsimp only
  split
  case isFalse hn =>
    refine .pure (.passed rfl rfl fun l hl _ => hn ?_)
    simpa using hl.chain
  case isTrue hchain =>
    split
    case h_2 hn =>
      refine .pure (.passed rfl rfl fun l hl _ => ?_)
      obtain ⟨rest, hrest⟩ := hl.operands
      exact hn l.base l.index rest hrest
    case h_1 base index rest hoperands =>
      split
      case h_2 hn =>
        refine .pure (.passed rfl rfl fun l hl harray => ?_)
        obtain ⟨rfl, rfl⟩ := hl.of_operands hoperands
        exact hn l.array harray
      case h_1 array harray =>
        refine .bind <| ofChecked_leads (fun type htype => ?_) trivial
        obtain _ | type := type
        · refine .bind <| report_leads <| .pure (.passed rfl rfl fun l hl _ => ?_)
          obtain ⟨rfl, rfl⟩ := hl.of_operands hoperands
          obtain ⟨type, hof, hint, hwidth, _⟩ := hl.type
          cases htype.symm.trans (indexType?_eq_some_iff.mpr ⟨hof, hint, hwidth⟩)
        · refine .bind <| ofChecked_leads (fun inBounds hin => ?_) trivial
          split
          case isTrue hskip =>
            obtain ⟨hs, rfl⟩ : s.skipConstantInBounds ∧ inBounds = true := by simpa using hskip
            refine .pure (.passed rfl rfl fun l hl harray' => ?_)
            obtain ⟨rfl, rfl⟩ := hl.of_operands hoperands
            cases harray.symm.trans harray'
            exact hl.bounds hs (isInBounds_eq_true_iff.mp hin)
          case isFalse hskip =>
            obtain ⟨hof, hint, hwidth⟩ := indexType?_eq_some_iff.mp htype
            -- No way out was taken, so this is a lookup and it is replaced.
            let l : Lookup := ⟨t.origin.getD 0, base, array, index, type.word? 3 == some 1⟩
            have hsigned : l.signed ↔ type.word? 3 = some 1 := by simp [l]
            have hl : l.DoneBy m s.skipConstantInBounds t := by
              refine ⟨by simpa using hchain, ⟨rest, hoperands⟩, ⟨type, hof, hint, hwidth, hsigned⟩,
                fun hs h => ?_⟩
              cases hin.symm.trans (isInBounds_eq_true_iff.mpr h)
              simp [hs] at hskip
            refine .map <| (instrument_replaces (l := l) hb ht hsigned).weaken ?_
            rintro q w' ⟨x, rfl, hr, hsplices, hgrows⟩
            exact .replaced hl harray rfl hr hsplices hgrows

theorem Lookup.Replaces.calls {bound : Id} {x : Piece} (h : l.Replaces bound w t x) :
    ∃ safe, x = ⟨x.inserted, { t with operands := t.operands.set 1 safe }⟩ ∧ bound ≤ safe
      ∧ safe < w.draft.bound
      ∧ (Edit.mk x.inserted safe none).Calls w.requests := by
  obtain ⟨word, function, index, arguments, safe, cast, _, hr, hc, _, hs, hlt, hinserted,
    hstatement⟩ := h
  refine ⟨safe, by rw [← hstatement], hs, hlt, ⟨cast, word, arguments, _, hr, hinserted, ?_⟩⟩
  unfold Converts at hc
  split at hc
  case isTrue =>
    subst hc
    simpa only [mem_singleton, forall_eq] using ⟨rfl, .bitcast, by simp, Statement.op?_new ..⟩
  case isFalse => simp [hc.right]

theorem visit_treats (m : Module) (settings : Settings) :
    (check m settings).Treats (fun _ => False) fun _ _ e => e.guard = none := by
  intro w p b t hb ht
  refine (visit_leads m settings hb ht).weaken fun next w' h => ?_
  cases h
  case passed _ hd hr => exact .passed hd hr False.elim
  case replaced l x hl _ _ hr hs hg =>
    obtain ⟨safe, hx, hsafe, hlt, hcalls⟩ := hr.calls
    let e : Edit := ⟨x.inserted, safe, none⟩
    have hturn : e.Turns w.draft p b t w'.draft := by
      refine Draft.Splices.turns (hx ▸ hs) ht ?_ hg.draft.globals.subset hg.bound
      simpa [Statement.is] using hl.chain
    have hafter : e.after p = { p with index := p.index + x.code.length } := by
      simp [Edit.after, Edit.next, e, Piece.code, Nat.add_assoc]
    rw [← hafter]
    exact .edited hturn hg.requests.subset (by simpa [Edit.ids, e] using ⟨hsafe, hlt⟩) hcalls rfl

end DescriptorIndexing
end Shader
