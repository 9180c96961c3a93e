import Shader.Proofs.Analysis.Resource
import Shader.Proofs.Text.Literal

namespace Shader

open List

namespace Findings

variable {f : Findings} {model : ExecutionModel} {listed : List Id} {reached : Std.TreeSet Id}
  {i : Instruction} {v : StageVariable}

structure Stages (f : Findings) (model : ExecutionModel) (listed : List Id)
    (reached : Std.TreeSet Id) (i : Instruction) (v : StageVariable) : Prop where
  result   : i.resultId? = some v.id
  place    : i.storageClass? = .ok (some v.storageClass)
  stage    : v.storageClass = .input ∨ v.storageClass = .output
  used     : v.id ∈ listed ∨ v.id ∈ reached
  found    : f.stageVariable? model v.id v.storageClass = .ok (some v)

theorem of_stageVariable? {id : Id} {place : StorageClass}
    (h : f.stageVariable? model id place = .ok (some v)) :
    v.id = id ∧ v.storageClass = place := by
  unfold stageVariable? at h
  obtain ⟨type, _, h⟩ := ok_of_bind h
  split at h
  case h_2 => cases h
  case h_1 =>
    obtain ⟨base, _, h⟩ := ok_of_bind h
    split at h
    case h_2 => cases h
    case h_1 =>
      split at h
      case h_2 => cases h
      case h_1 =>
        dsimp only at h
        split at h <;> obtain ⟨placement, _, h⟩ := ok_of_bind h <;> cases h <;> exact ⟨rfl, rfl⟩

variable {images : List ImageAccess} {u u' : Used}

theorem mem_stageVariables_of_addUsed (h : f.addUsed model listed reached images u i = .ok u') :
    v ∈ u'.stageVariables ↔ v ∈ u.stageVariables ∨ f.Stages model listed reached i v := by
  unfold addUsed at h
  split at h
  case h_2 hid =>
    cases h
    exact (or_iff_left fun hs => hid _ hs.result).symm
  case h_1 id hid =>
    obtain ⟨place, hplace, h⟩ := ok_of_bind h
    split at h
    case h_2 hnone =>
      cases h
      exact (or_iff_left fun hs => hnone _ (Except.ok.inj (hplace.symm.trans hs.place))).symm
    case h_1 place =>
      have hstage (hs : f.Stages model listed reached i v) : v.id = id ∧ v.storageClass = place :=
        ⟨Option.some.inj (hs.result.symm.trans hid),
          Option.some.inj (Except.ok.inj (hs.place.symm.trans hplace))⟩
      dsimp only at h
      split at h
      -- Only inputs and outputs can add a stage variable.
      case h_5 | h_6 =>
        split at h
        case isFalse hu =>
          cases h
          refine (or_iff_left fun hs => ?_).symm
          have := hs.used
          rw [(hstage hs).left] at this
          simp_all
        case isTrue hu =>
          obtain ⟨w, hw, h⟩ := ok_of_bind h
          cases h
          simp only [mem_append, Option.mem_toList]
          refine or_congr_right ⟨fun hv => ?_, fun hs => ?_⟩
          · subst hv
            obtain ⟨rfl, hc⟩ := of_stageVariable? hw
            exact ⟨hid, hc ▸ hplace, by simp [hc], by simpa using hu, hc ▸ hw⟩
          · have := hs.found
            rw [(hstage hs).left, (hstage hs).right] at this
            exact Except.ok.inj (hw.symm.trans this)
      case h_8 =>
        cases h
        refine (or_iff_left fun hs => ?_).symm
        have := hs.stage
        rw [(hstage hs).right] at this
        simp_all
      -- Resources and push constants go elsewhere.
      all_goals
        rw [or_iff_left fun hs => by simpa [(hstage hs).right] using hs.stage]
        split at h
        case isFalse =>
          cases h
          rfl
        case isTrue =>
          obtain ⟨_, _, h⟩ := ok_of_bind h
          cases h
          rfl

theorem mem_stageVariables_of_foldlM {is : List Instruction}
    (h : is.foldlM (f.addUsed model listed reached images) u = .ok u') :
    v ∈ u'.stageVariables ↔ v ∈ u.stageVariables ∨ ∃ i ∈ is, f.Stages model listed reached i v := by
  induction is generalizing u
  case nil =>
    cases h
    simp
  case cons i is hi =>
    rw [foldlM_cons] at h
    obtain ⟨next, hnext, h⟩ := ok_of_bind h
    rw [hi h, mem_stageVariables_of_addUsed hnext]
    simp [or_assoc]

theorem stages_of_entryPoint? {e : EntryPoint} {notes : List Note}
    (h : f.entryPoint? i = .ok (some (e, notes))) :
    e.name = i.stringAt 3 ∧ ∀ v, v ∈ e.stageVariables ↔ ∃ j ∈ f.variableInstructions,
      f.Stages e.model (i.words.drop (3 + i.stringLengthAt 3)) e.reached j v := by
  unfold entryPoint? at h
  split at h
  case h_2 => cases h
  case h_1 =>
    split at h
    case h_2 => cases h
    case h_1 =>
      obtain ⟨used, hused, h⟩ := ok_of_bind h
      cases h
      refine ⟨rfl, fun v => ?_⟩
      rw [mem_stageVariables_of_foldlM hused]
      simp

end Findings

theorem literal_read_back {text : String} (h : '\x00' ∉ text.toList) (rest : List Word) :
    (Text.Literal.encode text).flatMap Word.bytes
        = text.toByteArray.data.toList ++ 0 :: replicate (3 - text.utf8ByteSize % 4) 0
      ∧ Text.Literal.decode (Text.Literal.encode text ++ rest) = text
      ∧ Text.Literal.wordCount (Text.Literal.encode text ++ rest)
        = (Text.Literal.encode text).length
      ∧ (∀ (s : Statement) (model function : Word), s.op? = some .entryPoint →
        s.operands = model :: function :: (Text.Literal.encode text ++ rest) →
          ∀ k, s.isId k ↔ k = 1 ∨ 2 + (Text.Literal.encode text).length ≤ k)
      ∧ ∀ (f : Findings) (i : Instruction) (w model function : Word) (e : EntryPoint)
        (notes : List Note),
        i.words = w :: model :: function :: (Text.Literal.encode text ++ rest) →
          f.entryPoint? i = .ok (some (e, notes)) → e.name = text
            ∧ ∀ v, v ∈ e.stageVariables
              ↔ ∃ j ∈ f.variableInstructions, f.Stages e.model rest e.reached j v := by
  have hdecode := Text.Literal.decode_encode h rest
  have hcount := Text.Literal.wordCount_encode h rest
  refine ⟨?_, hdecode, hcount, fun s model function ho hs k => ?_,
    fun f i w model function e notes hi he => ?_⟩
  · have hl : text.utf8ByteSize = text.toByteArray.data.toList.length := by simp
    rw [hl, ← Text.Literal.flatMap_utf8EncodeChar]
    exact Text.Literal.bytes_pack _
  · have hids : Op.entryPoint.ids = .entryPoint := by decide +kernel
    simp [Statement.isId, ho, hids, OperandIds.isId, hs, hcount]
  · have hname : i.stringAt 3 = text := by rw [Instruction.stringAt, hi]; exact hdecode
    have hlength : i.stringLengthAt 3 = (Text.Literal.encode text).length := by
      rw [Instruction.stringLengthAt, hi]
      exact hcount
    have hlisted : i.words.drop (3 + i.stringLengthAt 3) = rest := by
      rw [hlength, hi, ← drop_drop]
      exact drop_left
    have hstages := Findings.stages_of_entryPoint? he
    rwa [hname, hlisted] at hstages

namespace Listed

-- An entry point with characters of one to four bytes in its name that lists an input and does not
-- use it.
def accented : List Word :=
  [119734787, 66816, 0, 9, 0, 458767, 0, 6, 4037657454, 3802039453, 44162, 5, 131091, 1, 196641, 2,
    1, 196630, 3, 32, 262176, 4, 1, 3, 262203, 4, 5, 1, 327734, 1, 6, 0, 2, 131320, 7, 65789, 65592]

theorem literal_read_back_accented : '\x00' ∉ "né𝄞€".toList
    ∧ ∃ m e, Module.ofWords accented = .ok m ∧ e ∈ m.entryPoints ∧ e.name = "né𝄞€"
      ∧ ∃ v ∈ e.stageVariables, v.id = 5 ∧ v.id ∉ e.reached
        ∧ ∃ j ∈ m.variableInstructions, m.Stages e.model [5] e.reached j v := by
  have hzero : '\x00' ∉ "né𝄞€".toList := by decide
  obtain ⟨m, hm, hwords, hentries⟩ : ∃ m, Module.ofWords accented = .ok m
      ∧ m.entryPointInstructions.map (·.words)
      = [458767 :: 0 :: 6 :: (Text.Literal.encode "né𝄞€" ++ [5])]
      ∧ m.entryPoints.map (fun e : EntryPoint => (e.stageVariables.map (·.id),
        e.reached.contains 5))
        = [([5], false)] :=
    exists_ok_of_decide (by decide +kernel)
  obtain ⟨e, hall, he⟩ := map_eq_singleton_iff.mp hentries
  obtain ⟨hids, hreached⟩ := Prod.mk.inj he
  obtain ⟨v, hv, hid⟩ := map_eq_singleton_iff.mp hids
  have hmem : e ∈ m.entryPoints := by rw [hall, mem_singleton]
  obtain ⟨i, notes, hi, hentry⟩ := (Module.isAnalysed_of_ofWords hm).exists_entryPoint? hmem
  have hi := mem_map_of_mem (f := fun i : Instruction => i.words) hi
  rw [hwords, mem_singleton] at hi
  obtain ⟨_, _, _, _, hread⟩ := literal_read_back hzero [5]
  obtain ⟨hname, hstages⟩ := hread m.toFindings i _ _ _ e notes hi hentry
  have hv : v ∈ e.stageVariables := by rw [hv, mem_singleton]
  refine ⟨hzero, m, e, hm, hmem, hname, v, hv, hid, ?_, (hstages v).mp hv⟩
  rwa [hid, ← Std.TreeSet.contains_iff_mem, Bool.not_eq_true]

end Listed
end Shader
