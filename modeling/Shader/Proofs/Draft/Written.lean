import Shader.Proofs.Draft.Form
import Shader.Proofs.Stream.Framing

namespace Shader

open List

theorem Op.size_lt_leastLength (op : Op) : op.outcome.size < op.leastLength :=
  Nat.lt_of_lt_of_le (by omega) (Nat.le_max_left (1 + op.outcome.size) op.fixedLength)

namespace Statement

theorem words_eq (s : Statement) :
    s.words = .ofHalves s.length s.opcode
      :: (s.resultType.toList ++ s.resultId.toList ++ s.operands) :=
  rfl

theorem length_words (s : Statement) : s.words.length = s.length := by
  simp [words_eq, length]
  omega

def instruction (s : Statement) (index offset : Nat) : Instruction :=
  ⟨index, offset, s.words⟩

section

variable {s : Statement} (hs : s.WellFormed) (hf : s.Fits) (index offset : Nat)

include hs hf

theorem opcode_instruction : (s.instruction index offset).opcode = s.opcode :=
  Word.low_ofHalves hf hs.opcode_lt

theorem op?_instruction : (s.instruction index offset).op? = s.op? := by
  rw [Instruction.op?, opcode_instruction hs hf, op?]

theorem outcome_instruction : (s.instruction index offset).outcome = s.outcome := by
  rw [Instruction.outcome, op?_instruction hs hf, outcome]

theorem framed_instruction : (s.instruction index offset).Framed where
  length := by
    rw [Instruction.length, instruction, length_words]
    exact Word.high_ofHalves hf hs.opcode_lt
  pos := by simp [Instruction.length, instruction, words_eq]
  least := by
    rw [op?_instruction hs hf, Instruction.length, instruction, length_words]
    exact hs.least

theorem ofInstruction_instruction :
    ofInstruction (s.instruction index offset) = { s with origin := some offset } := by
  have ht := hs.type
  have hr := hs.result
  rw [ofInstruction, opcode_instruction hs hf]
  simp only [Instruction.typeId?, Instruction.resultId?, Instruction.operands,
    Instruction.operandsStart, outcome_instruction hs hf]
  cases ho : s.outcome <;> simp only [ho, Outcome.hasType, Outcome.hasResult] at ht hr
  all_goals
    obtain ⟨opcode, type, id, operands, origin⟩ := s
    cases type <;> cases id <;> simp at ht hr
    rfl

theorem resultId?_instruction : (s.instruction index offset).resultId? = s.resultId :=
  congrArg resultId (ofInstruction_instruction hs hf index offset)

end

theorem length_eq (s : Statement) (ht : s.resultType.isSome = s.outcome.hasType)
    (hr : s.resultId.isSome = s.outcome.hasResult) :
    s.length = 1 + s.outcome.size + s.operands.length := by
  obtain ⟨opcode, type, id, operands, origin⟩ := s
  unfold length
  cases ho : outcome ⟨opcode, type, id, operands, origin⟩ <;> cases type <;> cases id <;>
    simp [ho, Outcome.hasType, Outcome.hasResult, Outcome.size] at ht hr ⊢

end Statement

namespace Instruction.Framed

variable {i : Instruction}

theorem size_lt (h : i.Framed) : i.outcome.size < i.length := by
  have hl := h.least
  have hp := h.pos
  unfold outcome
  cases ho : i.op?
  case none => exact hp
  case some op =>
    rw [ho] at hl
    exact Nat.lt_of_lt_of_le op.size_lt_leastLength hl

theorem wellFormed (h : i.Framed) : (Statement.ofInstruction i).WellFormed ∧
    (Statement.ofInstruction i).length = i.length := by
  have hs := h.size_lt
  have ht : i.typeId?.isSome = i.outcome.hasType := by
    unfold typeId? word? Outcome.hasType
    cases ho : i.outcome <;> simp [ho, Outcome.size, Instruction.length] at hs ⊢
    omega
  have hr : i.resultId?.isSome = i.outcome.hasResult := by
    unfold resultId? word? Outcome.hasResult
    cases ho : i.outcome <;> simp [ho, Outcome.size, Instruction.length] at hs ⊢ <;> omega
  have hlen : (Statement.ofInstruction i).length = i.length := by
    rw [Statement.length_eq _ ht hr]
    show 1 + i.outcome.size + (i.words.drop (1 + i.outcome.size)).length = i.words.length
    rw [List.length_drop]
    unfold Instruction.length at hs
    omega
  refine ⟨⟨?_, ht, hr, hlen ▸ h.least⟩, hlen⟩
  show (i.words.headD 0).low < 2 ^ 16
  exact Nat.mod_lt _ (by decide)

theorem fits (h : i.Framed) : (Statement.ofInstruction i).Fits := by
  rw [Statement.Fits, h.wellFormed.right, ← h.length]
  exact Word.high_lt _

end Instruction.Framed
end Shader
