import Shader.Instrument.Link
import Shader.Proofs.Draft.Form

namespace Shader

open List

namespace Statement

def ids (s : Statement) : List Id :=
  s.resultType.toList ++ s.resultId.toList
    ++ (s.operands.zipIdx.filter fun (_, k) => s.isId k).map Prod.fst

def rename (f : Id → Id) (s : Statement) : Statement where
  opcode := s.opcode
  resultType := s.resultType.map f
  resultId := s.resultId.map f
  operands := s.operands.zipIdx.map fun (w, k) => if s.isId k then f w else w
  origin := none

variable {f g : Id → Id} {s : Statement}

theorem mem_ids_iff {x : Id} : x ∈ s.ids ↔ s.resultType = some x ∨ s.resultId = some x
    ∨ ∃ k, s.operands[k]? = some x ∧ s.isId k = true := by
  simp [ids, mem_zipIdx_iff_getElem?]

theorem rename_congr (h : ∀ x ∈ s.ids, f x = g x) : s.rename f = s.rename g := by
  have ht : s.resultType.map f = s.resultType.map g :=
    Option.map_congr fun x hx => h x (mem_ids_iff.mpr (.inl hx))
  have hr : s.resultId.map f = s.resultId.map g :=
    Option.map_congr fun x hx => h x (mem_ids_iff.mpr (.inr (.inl hx)))
  have ho : (s.operands.zipIdx.map fun (w, k) => if s.isId k then f w else w)
      = s.operands.zipIdx.map fun (w, k) => if s.isId k then g w else w := by
    refine map_congr_left fun (w, k) hw => ?_
    rw [mem_zipIdx_iff_getElem?] at hw
    dsimp only
    split
    case isTrue hk => exact h w (mem_ids_iff.mpr (.inr (.inr ⟨k, hw, hk⟩)))
    case isFalse => rfl
  rw [rename, rename, ht, hr, ho]

@[simp]
theorem op?_rename : (s.rename f).op? = s.op? :=
  rfl

@[simp]
theorem length_rename : (s.rename f).length = s.length := by
  cases ht : s.resultType <;> cases hr : s.resultId <;> simp [rename, length, ht, hr]

theorem isId_eq {op : Op} (h : s.op? = some op) (k : Nat) :
    s.isId k = op.ids.isId s.operands k := by
  simp [isId, h]

theorem getElem?_operands_rename (k : Nat) :
    (s.rename f).operands[k]? = s.operands[k]?.map fun w => if s.isId k then f w else w := by
  cases h : s.operands[k]? <;> simp [rename, h]

theorem head?_operands_rename (h : s.isId 0 = false) :
    (s.rename f).operands.head? = s.operands.head? := by
  rw [head?_eq_getElem?, head?_eq_getElem?, getElem?_operands_rename]
  simp [h]

theorem WellFormed.rename (h : s.WellFormed) : (s.rename f).WellFormed :=
  h.of_same rfl (by simp [Statement.rename]) (by simp [Statement.rename])
    (Nat.le_of_eq length_rename.symm)

theorem Fits.rename (h : s.Fits) : (s.rename f).Fits := by
  rwa [Fits, length_rename]

theorem IsCode.rename (h : s.IsCode) : (s.rename f).IsCode :=
  h.of_same rfl (by simp [Statement.rename]) (by simp [Statement.rename]) length_rename

end Statement

namespace Block

def rename (f : Id → Id) (b : Block) : Block :=
  ⟨f b.label, b.body.map (Statement.rename f)⟩

theorem getElem?_everyOther (l : List Word) (k : Nat) : (everyOther l)[k]? = l[2 * k]? := by
  fun_induction everyOther generalizing k
  case case1 a b rest hi =>
    cases k
    case zero => rfl
    case succ k => simpa [Nat.mul_add] using hi k
  case case2 rest hn =>
    rcases rest with _ | ⟨a, _ | ⟨b, rest⟩⟩
    · simp
    · cases k <;> simp [Nat.mul_add]
    · exact (hn a b rest rfl).elim

theorem successors_rename (f : Id → Id) (b : Block) :
    (b.rename f).successors = b.successors.map f := by
  unfold successors
  rw [rename, getLast?_map]
  cases b.body.getLast?
  case none => rfl
  case some last =>
    rw [Option.map_some]
    dsimp only
    rw [Statement.op?_rename]
    split
    -- The operands that name a target are ids, at the places that each terminator has them.
    case h_1 ho =>
      have hid (k : Nat) : last.isId k = true := Statement.isId_eq ho k
      refine ext_getElem? fun k => ?_
      simp only [getElem?_take, getElem?_map, Statement.getElem?_operands_rename, hid, ↓reduceIte]
      split <;> rfl
    case h_2 ho =>
      have hid (k : Nat) (hk : k < 2) : last.isId (1 + k) = true := by
        rw [Statement.isId_eq ho]
        exact decide_eq_true (by omega)
      refine ext_getElem? fun k => ?_
      simp only [getElem?_take, getElem?_drop, getElem?_map, Statement.getElem?_operands_rename]
      split
      case isTrue hk => simp only [hid k hk, ↓reduceIte]
      case isFalse => rfl
    case h_3 ho =>
      have hfirst : last.isId 1 = true := Statement.isId_eq ho 1
      have hid (k : Nat) : last.isId (3 + 2 * k) = true := by
        rw [Statement.isId_eq ho]
        show (decide (3 + 2 * k < 2) || (3 + 2 * k - 2) % 2 == 1) = true
        have hodd : (3 + 2 * k - 2) % 2 = 1 := by omega
        simp [hodd]
      rw [map_append]
      congr 1
      · rw [Statement.getElem?_operands_rename]
        cases last.operands[1]? <;> simp [hfirst]
      · refine ext_getElem? fun k => ?_
        simp only [getElem?_everyOther, getElem?_drop, getElem?_map,
          Statement.getElem?_operands_rename, hid, ↓reduceIte]
    case h_4 => rfl

end Block

namespace FunctionDraft

def rename (g : Id → Id) (f : FunctionDraft) : FunctionDraft where
  definition := f.definition.rename g
  parameters := f.parameters.map (Statement.rename g)
  blocks := f.blocks.map (Block.rename g)
  close := f.close.rename g

theorem WellFormed.rename {f : FunctionDraft} (h : f.WellFormed) (g : Id → Id) :
    (f.rename g).WellFormed where
  definition := ⟨h.definition.left.rename, h.definition.right.left.rename, h.definition.right.right⟩
  parameters := by
    simp only [FunctionDraft.rename, forall_mem_map]
    exact fun s hs => ⟨(h.parameters s hs).left.rename, (h.parameters s hs).right.left.rename,
      (h.parameters s hs).right.right⟩
  code := by
    simp only [FunctionDraft.rename, Block.rename, forall_mem_map]
    exact fun b hb s hs => (h.code b hb s hs).rename
  close := ⟨h.close.left.rename, h.close.right.left.rename, h.close.right.right⟩

theorem WellFormed.id_rename {f : FunctionDraft} (h : f.WellFormed) (g : Id → Id) :
    (f.rename g).id = g f.id := by
  rw [id, FunctionDraft.rename, Statement.rename, h.resultId]
  rfl

-- Only what came with the module itself has an origin.
theorem origin_rename (f : FunctionDraft) (g : Id → Id) :
    ∀ b ∈ (f.rename g).blocks, ∀ s ∈ b.body, s.origin = none := by
  simp [rename, Block.rename, Statement.rename]

end FunctionDraft

namespace Renaming

-- What an id stands for. One that was not met stands for itself.
def image (m : Renaming) (x : Id) : Id :=
  m[x]?.getD x

def Extends (m m' : Renaming) : Prop :=
  ∀ x y : Id, m[x]? = some y → m'[x]? = some y

def Covers (m : Renaming) (s : Statement) : Prop :=
  ∀ x ∈ s.ids, ∃ y, m[x]? = some y

variable {m m' m'' : Renaming} {s : Statement} {x y : Id}

theorem image_of_getElem? (h : m[x]? = some y) : m.image x = y := by
  simp [image, h]

theorem Extends.refl (m : Renaming) : m.Extends m :=
  fun _ _ => id

theorem Extends.trans (h : m.Extends m') (h' : m'.Extends m'') : m.Extends m'' :=
  fun x y hx => h' x y (h x y hx)

theorem Extends.insert (h : m[x]? = none) : m.Extends (m.insert x y) := by
  intro z w hz
  rw [Std.TreeMap.getElem?_insert]
  split
  case isTrue heq => simp_all
  case isFalse => exact hz

theorem Covers.mono (h : m.Covers s) (hm : m.Extends m') : m'.Covers s := by
  intro x hx
  have ⟨y, hy⟩ := h x hx
  exact ⟨y, hm x y hy⟩

theorem Covers.rename_eq (h : m.Covers s) (hm : m.Extends m') :
    s.rename m'.image = s.rename m.image := by
  refine Statement.rename_congr fun x hx => ?_
  have ⟨y, hy⟩ := h x hx
  rw [image_of_getElem? hy, image_of_getElem? (hm x y hy)]

theorem image_eq (h : m.Extends m') (hx : m[x]? = some y) : m'.image x = m.image x := by
  rw [image_of_getElem? hx, image_of_getElem? (h x y hx)]

theorem Extends.block_rename_eq {b : Block} (hm : m.Extends m')
    (h : ∀ s ∈ b.statements, m.Covers s) :
    b.rename m'.image = b.rename m.image := by
  have hl : m'.image b.label = m.image b.label := by
    have hx : b.label ∈ b.labelStatement.ids := Statement.mem_ids_iff.mpr (.inr (.inl rfl))
    have ⟨y, hy⟩ := h b.labelStatement mem_cons_self b.label hx
    exact image_eq hm hy
  have hb : b.body.map (Statement.rename m'.image) = b.body.map (Statement.rename m.image) :=
    map_congr_left fun s hs => (h s (mem_cons_of_mem _ hs)).rename_eq hm
  rw [Block.rename, Block.rename, hl, hb]

theorem Extends.function_rename_eq {f : FunctionDraft} (hm : m.Extends m')
    (h : ∀ s ∈ f.statements, m.Covers s) : f.rename m'.image = f.rename m.image := by
  simp only [FunctionDraft.statements, mem_append, mem_cons, mem_flatMap, not_mem_nil, or_false]
    at h
  have hd := (h f.definition (.inl (.inl (.inl rfl)))).rename_eq hm
  have hp : f.parameters.map (Statement.rename m'.image)
      = f.parameters.map (Statement.rename m.image) :=
    map_congr_left fun s hs => (h s (.inl (.inl (.inr hs)))).rename_eq hm
  have hb : f.blocks.map (Block.rename m'.image) = f.blocks.map (Block.rename m.image) :=
    map_congr_left fun b hb => hm.block_rename_eq fun s hs => h s (.inl (.inr ⟨b, hb, hs⟩))
  have hc := (h f.close (.inr rfl)).rename_eq hm
  rw [FunctionDraft.rename, FunctionDraft.rename, hd, hp, hb, hc]

end Renaming
end Shader
