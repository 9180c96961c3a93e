import Shader.Proofs.Analysis.Rendered

namespace Shader

open List

theorem of_checkedSearch {α : Type} {key : α → Id} {next : α → Checked (List α)} {keys : Nat}
    {start : α} {items : List α} (h : checkedSearch key next keys start = .ok items) :
    items = search key (fun a => (next a).toOption.getD []) keys start := by
  obtain ⟨_, _, h⟩ := ok_of_bind h
  cases h
  rfl

theorem mem_of_mapM {α β : Type} {f : α → Checked β} {l : List α} {r : List β}
    (h : l.mapM f = .ok r) {y : β} :
    y ∈ r ↔ ∃ x ∈ l, f x = .ok y := by
  induction l generalizing r
  case nil =>
    cases h
    simp
  case cons x l hi =>
    rw [mapM_cons] at h
    obtain ⟨z, hz, h⟩ := ok_of_bind h
    obtain ⟨zs, hzs, h⟩ := ok_of_bind h
    cases h
    simp [hi hzs, hz, eq_comm (a := y)]

theorem mem_of_filterMapM {α β : Type} {f : α → Checked (Option β)} {l : List α} {r : List β}
    (h : l.filterMapM f = .ok r) {y : β} : y ∈ r ↔ ∃ x ∈ l, f x = .ok (some y) := by
  induction l generalizing r
  case nil =>
    cases h
    simp
  case cons x l hi =>
    rw [filterMapM_cons] at h
    obtain ⟨z, hz, h⟩ := ok_of_bind h
    cases z
    case none => simp [hi h, hz]
    case some z =>
      obtain ⟨zs, hzs, h⟩ := ok_of_bind h
      cases h
      simp [hi hzs, hz, eq_comm (a := y)]

structure Outline.IsRead (o : Outline) : Prop where
  valid   : o.toBinary.Valid
  indexed : o.toBinary.Indexed
  outline : Outline.ofBinary o.toBinary = .ok o

theorem Outline.IsRead.mem_keys_of_definition? {o : Outline} (h : o.IsRead) {id : Id}
    {i : Instruction} (hd : o.definition? id = some i) : id ∈ o.definitions.keys.toFinset := by
  rw [mem_toFinset, Std.TreeMap.mem_keys, ← Std.TreeMap.contains_iff_mem,
    h.indexed.contains_definitions, hd]
  rfl

namespace Findings

theorem of_entryPoint? {f : Findings} {i : Instruction} {e : EntryPoint} {notes : List Note}
    (h : f.entryPoint? i = .ok (some (e, notes))) :
    e.reached = f.reachable e.id ∧ e.writtenBuiltIns = f.writtenBuiltIns e.reached
      e.stageVariables := by
  unfold entryPoint? at h
  split at h
  case h_2 => cases h
  case h_1 =>
    split at h
    case h_2 => cases h
    case h_1 =>
      obtain ⟨used, _, h⟩ := ok_of_bind h
      cases h
      exact ⟨rfl, rfl⟩

end Findings

namespace Module

variable {words : List Word} {m : Module}

structure IsAnalysed (m : Module) : Prop extends m.toOutline.IsRead where
  accesses : m.toOutline.variableAccesses = .ok m.accesses
  images   : m.toOutline.imageAccesses = .ok m.images
  entries  : ∃ entries, m.entryPointInstructions.filterMapM m.toFindings.entryPoint? = .ok entries
    ∧ m.entryPoints = entries.map Prod.fst

theorem isAnalysed_of_ofWords (h : ofWords words = .ok m) : m.IsAnalysed := by
  obtain ⟨b, hb, h⟩ := ok_of_bind h
  have hread : Binary.read (Header.nativeOrder words) = .ok b := ok_of_mapError hb
  obtain ⟨o, ho, h⟩ := ok_of_bind (ok_of_mapError h)
  obtain ⟨f, hf, h⟩ := ok_of_bind h
  obtain ⟨entries, he, h⟩ := ok_of_bind h
  cases h
  obtain ⟨_, _, hf⟩ := ok_of_bind hf
  obtain ⟨accesses, ha, hf⟩ := ok_of_bind hf
  obtain ⟨images, hi, hf⟩ := ok_of_bind hf
  cases hf
  obtain ⟨rfl, _⟩ := Outline.of_ofBinary ho
  exact ⟨⟨Binary.read_valid hread, Binary.indexed_of_read hread, ho⟩, ha, hi, entries, he, rfl⟩

theorem structs_of_ofWords (h : ofWords words = .ok m) :
    StructTable.ofOutline m.toOutline = .ok m.structs := by
  obtain ⟨b, _, h⟩ := ok_of_bind h
  obtain ⟨o, _, h⟩ := ok_of_bind (ok_of_mapError h)
  obtain ⟨f, hf, h⟩ := ok_of_bind h
  obtain ⟨entries, _, h⟩ := ok_of_bind h
  cases h
  obtain ⟨structs, hs, hf⟩ := ok_of_bind hf
  obtain ⟨_, _, hf⟩ := ok_of_bind hf
  obtain ⟨_, _, hf⟩ := ok_of_bind hf
  cases hf
  exact hs

theorem IsAnalysed.exists_entryPoint? (h : m.IsAnalysed) {e : EntryPoint} (he : e ∈ m.entryPoints) :
    ∃ i notes, i ∈ m.entryPointInstructions
      ∧ m.toFindings.entryPoint? i = .ok (some (e, notes)) := by
  obtain ⟨entries, hentries, heq⟩ := h.entries
  rw [heq] at he
  obtain ⟨⟨e, notes⟩, hmem, rfl⟩ := mem_map.mp he
  obtain ⟨i, hi, hentry⟩ := (mem_of_filterMapM hentries).mp hmem
  exact ⟨i, notes, hi, hentry⟩

theorem IsAnalysed.of_mem_entryPoints (h : m.IsAnalysed) {e : EntryPoint} (he : e ∈ m.entryPoints) :
    e.reached = m.reachable e.id ∧ e.writtenBuiltIns = m.writtenBuiltIns e.reached
      e.stageVariables := by
  obtain ⟨_, _, _, hentry⟩ := h.exists_entryPoint? he
  exact Findings.of_entryPoint? hentry

end Module
end Shader
