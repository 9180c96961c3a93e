import Shader.Access.Reachable
import Shader.Proofs.Search

namespace Shader

open List Relation

namespace Binary

theorem contains_of_opOf? {b : Binary} {id : Id} {op : Op} (h : b.opOf? id = some op) :
    b.definitions.contains id := by
  rw [Std.TreeMap.contains_eq_isSome_getElem?]
  cases hd : b.definitions[id]?
  case none => simp [opOf?, definition?, hd] at h
  case some => rfl

end Binary

namespace Outline

variable (o : Outline) (entry : Id)

-- The entry point is in the set, if it is defined, and so is every defined id that a function in it
-- uses.
structure UseClosed (ids : Set Id) : Prop where
  entry : o.definitions.contains entry → entry ∈ ids
  uses  : ∀ function ∈ ids, o.opOf? function = some .function → ∀ i ∈ o.functionBody function,
    ∀ id ∈ i.uses, o.definitions.contains id → id ∈ ids

theorem mem_leadsTo_iff {a b : Id} :
    b ∈ o.leadsTo a ↔ o.opOf? a = some .function ∧ ∃ i ∈ o.functionBody a, b ∈ i.uses := by
  unfold leadsTo
  split
  case isTrue hf => simp [hf]
  case isFalse hf => simp [hf]

theorem mem_keys_of_leadsTo (a : Id) (h : o.leadsTo a ≠ []) : a ∈ o.definitions.keys.toFinset := by
  obtain ⟨b, hb⟩ := exists_mem_of_ne_nil _ h
  have hd := Binary.contains_of_opOf? (o.mem_leadsTo_iff.mp hb).left
  exact mem_toFinset.mpr (Std.TreeMap.mem_keys.mpr hd)

theorem card_keys_le : o.definitions.keys.toFinset.card ≤ o.definitions.size :=
  Std.TreeMap.length_keys (t := o.definitions) ▸ toFinset_card_le _

theorem mem_reachable_iff {id : Id} : id ∈ o.reachable entry
    ↔ ReflTransGen (fun a b => b ∈ o.leadsTo a) entry id ∧ o.definitions.contains id := by
  rw [reachable, Std.TreeSet.mem_ofList, contains_iff_mem, mem_filter,
    mem_search_id_iff o.mem_keys_of_leadsTo o.card_keys_le]

theorem reachable_congr {o o' : Outline} (hn : o.leadsTo = o'.leadsTo)
    (hc : ∀ id, o.definitions.contains id = o'.definitions.contains id) (entry : Id) :
    o.reachable entry = o'.reachable entry := by
  have hsize : o.definitions.size = o'.definitions.size := by
    rw [← Std.TreeMap.length_keys, ← Std.TreeMap.length_keys]
    refine Perm.length_eq ((perm_ext_iff_of_nodup Std.TreeMap.nodup_keys Std.TreeMap.nodup_keys).mpr
      fun id => ?_)
    rw [Std.TreeMap.mem_keys, Std.TreeMap.mem_keys, ← Std.TreeMap.contains_iff_mem,
      ← Std.TreeMap.contains_iff_mem, hc]
  unfold reachable
  simp only [hn, hsize, hc]

theorem UseClosed.mem {ids : Set Id} (h : o.UseClosed entry ids) {id : Id}
    (hr : ReflTransGen (fun a b => b ∈ o.leadsTo a) entry id) (hd : o.definitions.contains id) :
    id ∈ ids := by
  induction hr
  case refl => exact h.entry hd
  case tail a b _ hb hi =>
    obtain ⟨hf, i, hbody, huse⟩ := o.mem_leadsTo_iff.mp hb
    exact h.uses a (hi (Binary.contains_of_opOf? hf)) hf i hbody b huse hd

theorem useClosed_reachable : o.UseClosed entry {id | id ∈ o.reachable entry} where
  entry := fun hd => (o.mem_reachable_iff entry).mpr ⟨.refl, hd⟩
  uses  := by
    intro function hmem hf i hi id huse hd
    have hr := ((o.mem_reachable_iff entry).mp hmem).left
    exact (o.mem_reachable_iff entry).mpr ⟨hr.tail (o.mem_leadsTo_iff.mpr ⟨hf, i, hi, huse⟩), hd⟩

theorem reachable_isLeast : (∀ more, search id o.leadsTo (o.definitions.size + more) entry
      = search id o.leadsTo o.definitions.size entry)
    ∧ IsLeast {ids | o.UseClosed entry ids} {id | id ∈ o.reachable entry} := by
  refine ⟨search_stable o.mem_keys_of_leadsTo o.card_keys_le entry, o.useClosed_reachable entry, ?_⟩
  intro ids hids id hmem
  obtain ⟨hr, hd⟩ := (o.mem_reachable_iff entry).mp hmem
  exact hids.mem o entry hr hd

end Outline
end Shader
