import Shader.Proofs.Draft.Layout
import Shader.Proofs.Link.Correct

namespace Shader

open List

namespace Statement

variable {s : Statement} {name : String} {id : Id}

def Names (s : Statement) (name : String) (id : Id) : Prop :=
  s.op? = some .name ∧ ∃ text, s.operands = id :: text ∧ Text.Literal.decode text = name

def named? (s : Statement) (name : String) : Option Id :=
  match s.operands with
  | target :: text => if s.is .name && Text.Literal.decode text == name then some target else none
  | [] => none

theorem named?_eq_some_iff : s.named? name = some id ↔ s.Names name id := by
  unfold named? Names
  split
  case h_1 target text ho => simp [ho, is]; tauto
  case h_2 ho => simp [ho]

theorem named?_eq_none_iff : s.named? name = none ↔ ∀ id, ¬s.Names name id := by
  simp only [← named?_eq_some_iff]
  exact Option.eq_none_iff_forall_ne_some

end Statement

namespace Draft

variable {h : Draft} {name : String} {id : Id}

def Named (h : Draft) (name : String) (id : Id) : Prop :=
  ∃ s ∈ h.statements, s.Names name id

-- Outside of functions no statement gives the name before the one that gives it to `id`.
def FirstNamed (h : Draft) (name : String) (id : Id) : Prop :=
  ∃ past s rest, h.declarations = past ++ s :: rest ∧ s.Names name id
    ∧ ∀ t ∈ past, ∀ x, ¬t.Names name x

def HasFunction (h : Draft) (id : Id) : Prop :=
  ∃ f ∈ h.functions, f.id = id

-- There is no other function to take, and the name is first given to something that is none.
def Misses (h : Draft) (name : String) : Prop :=
  h.functions.length ≠ 1 ∧ ∀ id, h.FirstNamed name id → ¬h.HasFunction id

theorem FirstNamed.named (hn : h.FirstNamed name id) : h.Named name id := by
  obtain ⟨past, s, rest, heq, hs, _⟩ := hn
  refine ⟨s, mem_append_left _ ?_, hs⟩
  rw [heq]
  exact mem_append_right _ mem_cons_self

theorem findFunction?_eq (h : Draft) (name : String) : h.findFunction? name
    = ((h.debug.findSome? (·.named? name)).filter fun id => h.functions.any (·.id == id)).or
      (match h.functions with | [f] => some f.id | _ => none) :=
  rfl

theorem WellFormed.findSome?_named? (hw : h.WellFormed) (name : String) :
    h.declarations.findSome? (·.named? name) = h.debug.findSome? (·.named? name) := by
  have hnone (sec : Section) (hsec : sec ≠ .debug) : (h.inSection sec).findSome? (·.named? name)
      = none := by
    rw [findSome?_eq_none_iff]
    intro s hs
    rw [Statement.named?_eq_none_iff]
    rintro id ⟨ho, _⟩
    obtain ⟨_, _, heq⟩ := Statement.section?_eq_some_iff.mp (hw.sections sec s hs).right
    rw [ho] at heq
    exact hsec heq.symm
  have hcapabilities := hnone .capabilities (by decide)
  have hextensions := hnone .extensions (by decide)
  have himports := hnone .imports (by decide)
  have hmemoryModel := hnone .memoryModel (by decide)
  have hentryPoints := hnone .entryPoints (by decide)
  have hmodes := hnone .modes (by decide)
  have hannotations := hnone .annotations (by decide)
  have hglobals := hnone .globals (by decide)
  simp only [inSection] at *
  simp [declarations, findSome?_append, *]

theorem WellFormed.firstNamed_iff (hw : h.WellFormed) :
    h.FirstNamed name id ↔ h.debug.findSome? (·.named? name) = some id := by
  rw [← hw.findSome?_named?, findSome?_eq_some_iff]
  simp only [Statement.named?_eq_some_iff, Statement.named?_eq_none_iff]
  rfl

theorem WellFormed.findFunction?_eq_some_iff (hw : h.WellFormed) : h.findFunction? name = some id
    ↔ h.FirstNamed name id ∧ h.HasFunction id
      ∨ (∀ x, h.FirstNamed name x → ¬h.HasFunction x)
        ∧ h.functions.map FunctionDraft.id = [id] := by
  have hfunction (x : Id) : h.functions.any (·.id == x) = true ↔ h.HasFunction x := by
    simp [HasFunction]
  have honly : (match h.functions with | [f] => some f.id | _ => none) = some id
      ↔ h.functions.map FunctionDraft.id = [id] := by
    split
    case h_1 f hf => simp [hf]
    case h_2 hne =>
      simp only [reduceCtorEq, map_eq_singleton_iff, false_iff]
      rintro ⟨f, hf, _⟩
      exact hne f hf
  rw [findFunction?_eq, Option.or_eq_some_iff, honly]
  simp only [Option.filter_eq_some_iff, Option.filter_eq_none_iff, hfunction, hw.firstNamed_iff]

theorem map_id_eq (hid : h.HasFunction id) (hl : h.functions.length = 1) :
    h.functions.map FunctionDraft.id = [id] := by
  obtain ⟨f, hf⟩ := length_eq_one_iff.mp hl
  obtain ⟨g, hg, rfl⟩ := hid
  rw [hf] at hg ⊢
  rw [mem_singleton.mp hg, map_singleton]

theorem WellFormed.findFunction?_of_named (hw : h.WellFormed) (hid : h.HasFunction id)
    (hnamed : h.Named name id) (hm : ¬h.Misses name) :
    ∃ x, h.findFunction? name = some x ∧ h.HasFunction x ∧ h.Named name x := by
  by_cases hfirst : ∃ x, h.FirstNamed name x ∧ h.HasFunction x
  case pos =>
    obtain ⟨x, hx, hfunction⟩ := hfirst
    exact ⟨x, hw.findFunction?_eq_some_iff.mpr (.inl ⟨hx, hfunction⟩), hfunction, hx.named⟩
  case neg =>
    have hnot (x : Id) (hx : h.FirstNamed name x) : ¬h.HasFunction x := fun hf => hfirst ⟨x, hx, hf⟩
    have hlength : h.functions.length = 1 := by
      by_contra hl
      exact hm ⟨hl, hnot⟩
    exact ⟨id, hw.findFunction?_eq_some_iff.mpr (.inr ⟨hnot, map_id_eq hid hlength⟩), hid, hnamed⟩

theorem WellFormed.findFunction?_of_misses (hw : h.WellFormed) (hm : h.Misses name) :
    h.findFunction? name = none := by
  rw [Option.eq_none_iff_forall_ne_some]
  intro id hid
  obtain ⟨hfirst, hfunction⟩ | ⟨_, hone⟩ := hw.findFunction?_eq_some_iff.mp hid
  · exact hm.right id hfirst hfunction
  · exact hm.left (by simpa using congrArg length hone)

theorem link_of_findFunction?_eq_none (hf : h.findFunction? name = none) (function : Id)
    (host : Draft) :
    link ⟨name, function⟩ h host = .error (.invalidHelper name .noFunction) host := by
  simp only [link, hf]
  rfl

-- If functions bear the name, one of them is taken, unless the name is first given to something
-- else and there are several functions: then there is none to link. If none bears it, it has to be
-- the only one.
theorem finds_named {words : List Word} {b : Binary} (hb : Binary.ofWords words = .ok b)
    (hd : ofBinary b = .ok h) (name : String) :
    ((∃ id, h.HasFunction id ∧ h.Named name id) →
      (¬h.Misses name → ∃ id, h.findFunction? name = some id ∧ h.HasFunction id ∧ h.Named name id)
      ∧ (h.Misses name → h.findFunction? name = none
        ∧ ∀ function host, link ⟨name, function⟩ h host
          = .error (.invalidHelper name .noFunction) host))
    ∧ ((¬∃ id, h.HasFunction id ∧ h.Named name id) →
      ∀ id, h.findFunction? name = some id ↔ h.functions.map FunctionDraft.id = [id]) := by
  have hw := ofBinary_wellFormed hd (Binary.read_valid hb)
  refine ⟨?_, fun hnone id => ?_⟩
  · rintro ⟨id, hid, hnamed⟩
    refine ⟨hw.findFunction?_of_named hid hnamed, fun hm => ?_⟩
    have hf := hw.findFunction?_of_misses hm
    exact ⟨hf, link_of_findFunction?_eq_none hf⟩
  · have hnot (x : Id) (hx : h.FirstNamed name x) : ¬h.HasFunction x :=
      fun hf => hnone ⟨x, hf, hx.named⟩
    rw [hw.findFunction?_eq_some_iff, or_iff_right fun hid => hnot id hid.left hid.right]
    exact and_iff_right hnot

namespace Named

-- The name of a helper is given to `first` and then to `second`. The functions are 3 and 6.
def twice (first second : Id) : List Word :=
  [Header.magicNumber, 66816, 0, 8, 0, 393221, first, 1953721961, 2036429407, 1702195551, 31090,
   393221, second, 1953721961, 2036429407, 1702195551, 31090, 131092, 1, 196641, 2, 1, 196649, 1, 5,
   327734, 1, 3, 0, 2, 131320, 4, 131326, 5, 65592, 327734, 1, 6, 0, 2, 131320, 7, 131326, 5, 65592]

theorem named_twice {first second : Id} {rest : List (Option Id)}
    (hn : h.declarations.map (·.named? name) = some first :: some second :: rest) :
    h.FirstNamed name first ∧ h.Named name second := by
  obtain ⟨s, ss, heq, hs, hss⟩ := map_eq_cons_iff.mp hn
  obtain ⟨t, ts, rfl, ht, _⟩ := map_eq_cons_iff.mp hss
  refine ⟨⟨[], s, t :: ts, heq, Statement.named?_eq_some_iff.mp hs, by simp⟩,
    t, mem_append_left _ ?_, Statement.named?_eq_some_iff.mp ht⟩
  simp [heq]

theorem hasFunction_iff_mem {ids : List Id} (hf : h.functions.map FunctionDraft.id = ids) :
    h.HasFunction id ↔ id ∈ ids := by
  rw [← hf, mem_map]
  rfl

theorem finds_named_twice : ∃ b h, Binary.ofWords (twice 3 1) = .ok b ∧ ofBinary b = .ok h
    ∧ ¬h.HasFunction 1 ∧ h.Named RayQuery.helper 1 ∧ h.functions.length = 2
    ∧ ∃ id, h.findFunction? RayQuery.helper = some id ∧ h.HasFunction id
    ∧ h.Named RayQuery.helper id := by
  obtain ⟨b, hb, hread⟩ : ∃ b, Binary.ofWords (twice 3 1) = .ok b
      ∧ ((ofBinary b).map fun h => decide
      (h.functions.map FunctionDraft.id = [3, 6]
        ∧ h.declarations.map (·.named? RayQuery.helper) = [some 3, some 1, none, none, none]))
          = .ok true :=
    exists_ok_of_decide (by decide +kernel)
  obtain ⟨h, hd, hfunctions, hnames⟩ := exists_ok_of_decide hread
  obtain ⟨hfirst, hsecond⟩ := named_twice hnames
  have hfunction : h.HasFunction 3 := (hasFunction_iff_mem hfunctions).mpr (by decide)
  have hlength : h.functions.length = 2 := by simpa using congrArg length hfunctions
  obtain ⟨hfound, _⟩ := (finds_named hb hd RayQuery.helper).left ⟨3, hfunction, hfirst.named⟩
  exact ⟨b, h, hb, hd, mt (hasFunction_iff_mem hfunctions).mp (by decide), hsecond, hlength,
    hfound fun hm => hm.right 3 hfirst hfunction⟩

theorem not_found_twice :
    ∃ b h, Binary.ofWords (twice 1 3) = .ok b ∧ ofBinary b = .ok h ∧ h.HasFunction 3
      ∧ h.Named RayQuery.helper 3 ∧ h.findFunction? RayQuery.helper = none := by
  obtain ⟨b, hb, hread⟩ : ∃ b, Binary.ofWords (twice 1 3) = .ok b
      ∧ ((ofBinary b).map fun h => decide
      (h.functions.map FunctionDraft.id = [3, 6] ∧ h.findFunction? RayQuery.helper = none
        ∧ h.declarations.map (·.named? RayQuery.helper) = [some 1, some 3, none, none, none]))
          = .ok true :=
    exists_ok_of_decide (by decide +kernel)
  obtain ⟨h, hd, hfunctions, hnone, hnames⟩ := exists_ok_of_decide hread
  exact ⟨b, h, hb, hd, (hasFunction_iff_mem hfunctions).mpr (by decide), (named_twice hnames).right,
    hnone⟩

end Named

end Draft
end Shader
