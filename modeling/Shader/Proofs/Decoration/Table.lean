import Shader.Proofs.Analysis.Reading

namespace Shader

open List

@[ext]
structure DecorationTarget where
  id     : Id
  member : Option Word
  deriving DecidableEq

def DecorationTarget.on (t : DecorationTarget) (f : Decorations → Decorations) :
    DecorationSet → DecorationSet :=
  t.member.elim (.onBase f) (.onMember · f)

abbrev DecorationEntries := Id → Option DecorationSet

structure DecorationChange where
  target : DecorationTarget
  change : Decorations → Decorations

def DecorationChange.apply (v : DecorationEntries) (c : DecorationChange) : DecorationEntries :=
  Function.update v c.target.id (some (c.target.on c.change ((v c.target.id).getD {})))

theorem DecorationChange.foldl_apply_of_ne {cs : List DecorationChange} {id : Id}
    (h : ∀ c ∈ cs, c.target.id ≠ id) (v : DecorationEntries) : cs.foldl apply v id = v id := by
  induction cs generalizing v
  case nil => rfl
  case cons c cs hi =>
    rw [forall_mem_cons] at h
    rw [foldl_cons, hi h.right, apply, Function.update_of_ne (Ne.symm h.left)]

namespace Instruction

def said? (i : Instruction) : Option (DecorationTarget × Decoration × Option Word) :=
  match i.op? with
  | some .decorate | some .decorateId => do
    let d ← Decoration.ofNumber? (← i.word? 2).toNat
    return (⟨← i.word? 1, none⟩, d, i.word? 3)
  | some .memberDecorate => do
    let d ← Decoration.ofNumber? (← i.word? 3).toNat
    return (⟨← i.word? 1, ← i.word? 2⟩, d, i.word? 4)
  | _ => none

def group? (i : Instruction) : Option Id :=
  match i.op? with
  | some .groupDecorate | some .groupMemberDecorate => i.word? 1
  | _ => none

def groupTargets (i : Instruction) : List DecorationTarget :=
  match i.op? with
  | some .groupDecorate => (i.words.drop 2).map (⟨·, none⟩)
  | some .groupMemberDecorate => (DecorationTable.pairs (i.words.drop 2)).map fun (id, member) =>
    ⟨id, member⟩
  | _ => []

def saying (i : Instruction) : List DecorationChange :=
  i.said?.toList.map fun (target, d, value) => ⟨target, (·.add d value)⟩

def copies (i : Instruction) (v : DecorationEntries) : List DecorationChange :=
  (i.group?.bind v).elim [] fun group => i.groupTargets.map (⟨·, (·.merge group.base)⟩)

def copyGroup (v : DecorationEntries) (i : Instruction) : DecorationEntries :=
  (i.copies v).foldl DecorationChange.apply v

end Instruction

namespace DecorationTable

variable {t t' : DecorationTable} {i : Instruction} {is : List Instruction}

def entries (t : DecorationTable) : DecorationEntries :=
  fun id => t[id]?

theorem entries_empty : entries ∅ = fun _ => none :=
  funext fun _ => Std.TreeMap.getElem?_emptyc

theorem of_eq (t : DecorationTable) (id : Id) : t.of id = (t.entries id).getD {} :=
  Std.TreeMap.getD_eq_getD_getElem?

theorem entries_update (t : DecorationTable) (id : Id) (f : DecorationSet → DecorationSet) :
    (t.update id f).entries = Function.update t.entries id (some (f ((t.entries id).getD {}))) := by
  funext x
  rw [entries, update, Std.TreeMap.getElem?_insert, of_eq]
  by_cases h : id = x
  case pos => simp [h]
  case neg => simp [h, Function.update_of_ne (Ne.symm h), entries]

theorem entries_foldl_update {α : Type} (target : α → DecorationTarget)
    (f : Decorations → Decorations) (l : List α) (t : DecorationTable) :
    (l.foldl (fun t a => t.update (target a).id ((target a).on f)) t).entries
      = ((l.map target).map (⟨·, f⟩)).foldl DecorationChange.apply t.entries := by
  induction l generalizing t
  case nil => rfl
  case cons a l hi =>
    rw [foldl_cons, hi, map_cons, map_cons, foldl_cons, entries_update, DecorationChange.apply]

theorem entries_of_addDirect (h : t.addDirect i = .ok t') :
    t'.entries = i.saying.foldl DecorationChange.apply t.entries := by
  have hword {k : Nat} {w : Word} (hw : i.word k = .ok w) : i.word? k = some w :=
    Instruction.word?_of_word hw
  obtain ⟨d, hd, h⟩ := ok_of_bind h
  unfold Instruction.decoration? at hd
  unfold Instruction.saying Instruction.said?
  split at h
  case h_1 d ho | h_2 d ho =>
    obtain ⟨n, hn, hd⟩ := ok_of_bind (by simpa only [ho] using hd)
    obtain ⟨id, hid, h⟩ := ok_of_bind h
    cases h
    simp [ho, hword hn, hword hid, Except.ok.inj hd, entries_update, DecorationChange.apply,
      DecorationTarget.on]
  case h_3 d ho =>
    obtain ⟨n, hn, hd⟩ := ok_of_bind (by simpa only [ho] using hd)
    obtain ⟨id, hid, h⟩ := ok_of_bind h
    obtain ⟨m, hm, h⟩ := ok_of_bind h
    cases h
    simp [ho, hword hn, hword hid, hword hm, Except.ok.inj hd, entries_update,
      DecorationChange.apply, DecorationTarget.on]
  case h_4 h₁ h₂ h₃ =>
    -- The decoration has no known number, or the annotation is of another kind.
    cases h
    split
    case h_1 ho | h_2 ho | h_3 ho =>
      obtain ⟨n, hn, hd⟩ := ok_of_bind (by simpa only [ho] using hd)
      cases hk : Decoration.ofNumber? n.toNat
      case none => simp [hword hn, hk]
      case some d =>
        rw [hk] at hd
        cases hd
        simp_all
    case h_4 => rfl

theorem entries_of_addGroup (h : t.addGroup i = .ok t') :
    t'.entries = Instruction.copyGroup t.entries i := by
  have hword {k : Nat} {w : Word} (hw : i.word k = .ok w) : i.word? k = some w :=
    Instruction.word?_of_word hw
  unfold addGroup at h
  split at h
  case h_3 h₁ h₂ =>
    cases h
    have hnone : i.groupTargets = [] := by
      unfold Instruction.groupTargets
      split <;> simp_all
    rw [Instruction.copyGroup, Instruction.copies, hnone]
    cases i.group?.bind t.entries <;> rfl
  case h_1 ho =>
    obtain ⟨id, hid, h⟩ := ok_of_bind h
    simp only [Instruction.copyGroup, Instruction.copies, Instruction.group?,
      Instruction.groupTargets, ho, hword hid, Option.bind_some]
    cases hg : t.entries id <;> rw [entries] at hg <;> rw [hg] at h <;> cases h
    case none => rfl
    case some group =>
      exact entries_foldl_update (⟨·, none⟩) (·.merge group.base) (i.words.drop 2) t
  case h_2 ho =>
    obtain ⟨id, hid, h⟩ := ok_of_bind h
    simp only [Instruction.copyGroup, Instruction.copies, Instruction.group?,
      Instruction.groupTargets, ho, hword hid, Option.bind_some]
    cases hg : t.entries id <;> rw [entries] at hg <;> rw [hg] at h <;> cases h
    case none => rfl
    case some group =>
      exact entries_foldl_update (fun x => ⟨x.1, some x.2⟩) (·.merge group.base)
        (pairs (i.words.drop 2)) t

end DecorationTable

def saidEntries (is : List Instruction) : DecorationEntries :=
  (is.flatMap Instruction.saying).foldl DecorationChange.apply fun _ => none

namespace DecorationTable

variable {t t' : DecorationTable} {is : List Instruction}

theorem entries_of_foldlM {add : DecorationTable → Instruction → Checked DecorationTable}
    {change : DecorationEntries → Instruction → DecorationEntries}
    (hadd : ∀ t i t', add t i = .ok t' → t'.entries = change t.entries i)
    (h : is.foldlM add t = .ok t') :
    t'.entries = is.foldl change t.entries := by
  induction is generalizing t
  case nil =>
    cases h
    rfl
  case cons i is hi =>
    rw [foldlM_cons] at h
    obtain ⟨t₁, ht, h⟩ := ok_of_bind h
    rw [hi h, hadd t i t₁ ht, foldl_cons]

theorem entries_of_ofAnnotations (h : ofAnnotations is = .ok t) :
    t.entries = is.foldl Instruction.copyGroup (saidEntries is) := by
  obtain ⟨t₀, h₀, h⟩ := ok_of_bind h
  have hsaid : t₀.entries = is.foldl (fun entries i => i.saying.foldl DecorationChange.apply
      entries) (entries ∅) :=
    entries_of_foldlM (fun _ _ _ => entries_of_addDirect) h₀
  have hcopied : t.entries = is.foldl Instruction.copyGroup t₀.entries :=
    entries_of_foldlM (fun _ _ _ => entries_of_addGroup) h
  rw [hcopied, hsaid, entries_empty, saidEntries, foldl_flatMap]

end DecorationTable
end Shader
