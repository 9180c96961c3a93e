import Shader.Proofs.Draft.Edit
import Shader.Proofs.Link.Renaming

namespace Shader

open List

-- The functions of `d` are those of `host` and others that came after them. The others have new ids
-- but for the one that was requested, and nothing in them came with the module.
def Draft.Gains (host : Draft) (request : Id) (d : Draft) : Prop :=
  ∃ fs, d.functions = host.functions ++ fs
    ∧ ∀ f ∈ fs, (f.id = request ∨ host.bound ≤ f.id) ∧ ∀ b ∈ f.blocks, ∀ s ∈ b.body, s.origin = none

theorem Draft.Gains.refl (host : Draft) (request : Id) : host.Gains request host :=
  ⟨[], by simp⟩

-- Linking started from `host`, which held the id `request`. The ids in `shared` stand for something
-- that the module had, so only the others have an id of their own.
structure Linked (host : Draft) (request : Id) (settled shared : List Id) (held : List Definition)
    (m : Renaming) (d : Draft) : Prop where
  bound     : host.bound ≤ d.bound
  fresh     : ∀ x y, m[x]? = some y → x ∉ shared → (y = request ∨ host.bound ≤ y) ∧ y < d.bound
  injective : ∀ x x' y, m[x]? = some y → m[x']? = some y → x ∉ shared → x' ∉ shared → x = x'
  sharing   : shared ⊆ settled
  gains     : host.Gains request d
  ledger    : ∃ waiting : List (Id × Id), (∀ x y, m[x]? = some y → x ∈ settled ∨ (x, y) ∈ waiting)
    ∧ ∀ base rest, Ledger base host ((request, none) :: rest) →
      Ledger base d (waiting.map (·.2, none) ++ (held ++ rest))

structure Abandoned (host : Draft) (request : Id) (d : Draft) : Prop where
  bound   : host.bound ≤ d.bound
  spilled : ∀ base rest, Ledger base host ((request, none) :: rest) → Spilled base rest d
  gains   : host.Gains request d

namespace Linked

variable {host d : Draft} {request : Id} {settled shared : List Id} {held : List Definition}
  {m : Renaming}

theorem abandoned (h : Linked host request settled shared held m d) : Abandoned host request d where
  bound := h.bound
  spilled base rest hl := by
    have ⟨waiting, _, hd⟩ := h.ledger
    exact ⟨waiting.map (·.2, none) ++ held, by simpa using hd base rest hl⟩
  gains := h.gains

theorem settle_all (h : Linked host request settled shared held m d) {settled' : List Id}
    (hs : settled ⊆ settled') : Linked host request settled' shared held m d := by
  have ⟨waiting, hc, hd⟩ := h.ledger
  exact { h with
    sharing := Subset.trans h.sharing hs
    ledger := ⟨waiting, fun x y hx => (hc x y hx).imp_left (@hs x), hd⟩ }

theorem settled_append {ss ts : List Statement}

    (h : Linked host request (ts.filterMap Statement.resultId ++ ss.filterMap Statement.resultId)
      shared held m d) :
    Linked host request ((ss ++ ts).filterMap Statement.resultId) shared held m d :=
  h.settle_all (by rw [filterMap_append]; exact perm_append_comm.subset)

theorem share_perm (h : Linked host request settled shared held m d) {shared' : List Id}
    (hs : shared ~ shared') : Linked host request settled shared' held m d where
  bound := h.bound
  fresh x y hx hn := h.fresh x y hx (hn ∘ hs.mem_iff.mp)
  injective x x' y hx hx' hn hn' :=
    h.injective x x' y hx hx' (hn ∘ hs.mem_iff.mp) (hn' ∘ hs.mem_iff.mp)
  sharing := Subset.trans hs.symm.subset h.sharing
  gains := h.gains
  ledger := h.ledger

theorem perm (h : Linked host request settled shared held m d) {held' : List Definition}
    (hp : held ~ held') : Linked host request settled shared held' m d := by
  have ⟨waiting, hc, hd⟩ := h.ledger
  refine { h with ledger := ⟨waiting, hc, fun base rest hl => (hd base rest hl).perm ?_⟩ }
  exact (hp.append_right _).append_left _

theorem gain (h : Linked host request settled shared held m d) {held' : List Definition}
    {d' : Draft} (hb : d.bound ≤ d'.bound) (hg : host.Gains request d')
    (hd : ∀ base rest, Ledger base d (held ++ rest) → Ledger base d' (held' ++ rest)) :
    Linked host request settled shared held' m d' := by
  have ⟨waiting, hc, hl⟩ := h.ledger
  refine ⟨UInt32.le_trans h.bound hb, fun x y hx hn => ?_, h.injective, h.sharing, hg, waiting, hc,
    fun base rest hs => ?_⟩
  · have ⟨hf, hy⟩ := h.fresh x y hx hn
    exact ⟨hf, UInt32.lt_of_lt_of_le hy hb⟩
  have swap (l : List Definition) : l ++ (waiting.map (·.2, none) ++ rest)
      ~ waiting.map (·.2, none) ++ (l ++ rest) := by
    simp only [← append_assoc]
    exact perm_append_comm.append_right _
  exact (hd base _ ((hl base rest hs).perm (swap held).symm)).perm (swap held')

theorem edit (h : Linked host request settled shared held m d) {held' : List Definition}
    {d' : Draft} (hb : d.bound ≤ d'.bound) (hf : d'.functions = d.functions)
    (hd : ∀ base rest, Ledger base d (held ++ rest) → Ledger base d' (held' ++ rest)) :
    Linked host request settled shared held' m d' := by
  refine h.gain hb ?_ hd
  rw [Draft.Gains, hf]
  exact h.gains

theorem noteType {s : Statement}
    (h : Linked host request settled shared (s.resultId.toList.map (·, none) ++ held) m d) :
    Linked host request settled shared (s.defines ++ held) m (d.noteType s) := by
  have hb : (d.noteType s).bound = d.bound := congrArg Header.bound (d.header_noteType s)
  refine h.edit (hb ▸ UInt32.le_refl _) (by simp) fun base rest hd => ?_
  rw [append_assoc] at hd ⊢
  exact hd.noteType

theorem push {s : Statement} {sec : Section}
    (h : Linked host request settled shared (s.defines ++ held) m d) (hs : s.WellFormed)
    (hb : s.BelongsTo sec) (hf : s.Fits) :
    Linked host request settled shared held m (d.push s sec) := by
  refine h.edit (by simp) (by simp) fun base rest hd => ?_
  rw [append_assoc] at hd
  exact hd.push hs hb hf

theorem pushFunction {f : FunctionDraft}
    (h : Linked host request settled shared (f.defines ++ held) m d) (hf : f.WellFormed)
    (hid : f.id = request ∨ host.bound ≤ f.id)
    (ho : ∀ b ∈ f.blocks, ∀ s ∈ b.body, s.origin = none) :
    Linked host request settled shared held m (d.pushFunction f) := by
  refine h.gain (UInt32.le_refl _) ?_ fun base rest hd => ?_
  · have ⟨fs, heq, hfs⟩ := h.gains
    refine ⟨fs ++ [f], by simp [Draft.pushFunction, heq], ?_⟩
    rw [forall_mem_append, forall_mem_singleton]
    exact ⟨hfs, hid, ho⟩
  · rw [append_assoc] at hd
    exact hd.pushFunction hf

theorem allocate (h : Linked host request settled shared held m d) (x : Id)
    (hb : d.bound.toNat < Word.greatest) :
    Linked host request settled shared held (m.insert x d.bound)
      { d with bound := d.bound + 1 } := by
  have hlt : d.bound < d.bound + 1 := by
    rw [UInt32.lt_iff_toNat_lt, toNat_bound_succ hb]
    omega
  refine ⟨UInt32.le_trans h.bound (UInt32.le_of_lt hlt), fun z y hz hs => ?_,
    fun z z' y hz hz' hs hs' => ?_, h.sharing, h.gains, ?_⟩
  case refine_1 =>
    rw [Std.TreeMap.getElem?_insert] at hz
    split at hz
    case isTrue heq =>
      obtain rfl : d.bound = y := Option.some.inj hz
      exact ⟨.inr h.bound, hlt⟩
    case isFalse =>
      have ⟨hf, hy⟩ := h.fresh z y hz hs
      exact ⟨hf, UInt32.lt_trans hy hlt⟩
  case refine_2 =>
    -- No name that is taken is the bound itself.
    have below {w : Id} (hw : m[w]? = some d.bound) (hs : w ∉ shared) : False :=
      UInt32.lt_irrefl _ (h.fresh w d.bound hw hs).right
    rw [Std.TreeMap.getElem?_insert] at hz hz'
    split at hz <;> split at hz'
    case isTrue.isTrue h₁ h₂ => simp_all
    case isTrue.isFalse =>
      obtain rfl : d.bound = y := Option.some.inj hz
      exact (below hz' hs').elim
    case isFalse.isTrue =>
      obtain rfl : d.bound = y := Option.some.inj hz'
      exact (below hz hs).elim
    case isFalse.isFalse => exact h.injective z z' y hz hz' hs hs'
  case refine_3 =>
    have ⟨waiting, hc, hd⟩ := h.ledger
    refine ⟨(x, d.bound) :: waiting, fun z y hz => ?_, fun base rest hl =>
      (hd base rest hl).allocate hb⟩
    rw [Std.TreeMap.getElem?_insert] at hz
    split at hz
    case isTrue heq => simp_all
    case isFalse => exact (hc z y hz).imp_right (mem_cons_of_mem _)

theorem settle (h : Linked host request settled shared held m d) {x y : Id} (hx : m[x]? = some y)
    (hs : x ∉ settled) : Linked host request (x :: settled) shared ((y, none) :: held) m d := by
  have ⟨waiting, hc, hd⟩ := h.ledger
  have hw := (hc x y hx).resolve_left hs
  refine { h with
    sharing := subset_cons_of_subset x h.sharing
    ledger := ⟨waiting.erase (x, y), fun z w hz => ?_, fun base rest hl => ?_⟩ }
  · by_cases hzx : z = x
    case pos => exact .inl (hzx ▸ mem_cons_self)
    case neg =>
      refine (hc z w hz).imp (mem_cons_of_mem _) fun hw => ?_
      exact (mem_erase_of_ne (by simp [hzx])).mpr hw
  · refine (hd base rest hl).perm ?_
    have hp := (perm_cons_erase hw).map fun p => (p.2, (none : Option Id))
    refine (hp.append_right _).trans ?_
    exact perm_middle.symm

theorem define (h : Linked host request settled shared held m d) {x y : Id} {s : Statement}
    {sec : Section} (hx : m[x]? = some y) (hn : x ∉ settled) (hr : s.resultId = some y)
    (hs : s.WellFormed) (hb : s.BelongsTo sec) (hf : s.Fits) :
    Linked host request (x :: settled) shared held m ((d.noteType s).push s sec) := by
  have hd : Linked host request (x :: settled) shared (s.resultId.toList.map (·, none) ++ held) m
      d := by
    rw [hr]
    exact h.settle hx hn
  exact hd.noteType.push hs hb hf

theorem share (h : Linked host request settled shared held m d) (x y : Id) :
    Linked host request (x :: settled) (x :: shared) held (m.insert x y) d := by
  have other {z w : Id} (hz : (m.insert x y)[z]? = some w) (hn : z ∉ x :: shared) :
      m[z]? = some w ∧ z ∉ shared := by
    rw [mem_cons, not_or] at hn
    rw [Std.TreeMap.getElem?_insert] at hz
    split at hz
    case isTrue heq => simp_all
    case isFalse => exact ⟨hz, hn.right⟩
  refine ⟨h.bound, fun z w hz hn => ?_, fun z z' w hz hz' hn hn' => ?_,
    cons_subset_cons x h.sharing, h.gains, ?_⟩
  case refine_1 => exact h.fresh z w (other hz hn).left (other hz hn).right
  case refine_2 =>
    exact h.injective z z' w (other hz hn).left (other hz' hn').left (other hz hn).right
      (other hz' hn').right
  case refine_3 =>
    have ⟨waiting, hc, hd⟩ := h.ledger
    refine ⟨waiting, fun z w hz => ?_, hd⟩
    rw [Std.TreeMap.getElem?_insert] at hz
    split at hz
    case isTrue heq => simp_all
    case isFalse => exact (hc z w hz).imp_left (mem_cons_of_mem _)

end Linked
end Shader
