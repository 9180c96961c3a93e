import Shader.Proofs.Stream.Framing
import Shader.Proofs.Text.Utf8

namespace Shader.Text.Literal

open List

variable {bytes : List UInt8}

theorem bytes_pack (bytes : List UInt8) :
    (pack bytes).flatMap Word.bytes = bytes ++ 0 :: replicate (3 - bytes.length % 4) 0 := by
  fun_induction pack bytes
  case case1 b₀ b₁ b₂ b₃ rest hi =>
    rw [flatMap_cons, Word.byte_ofBytes, hi]
    simp [Nat.add_assoc]
  case case5 => rfl
  all_goals
    rw [flatMap_singleton, Word.byte_ofBytes]
    rfl

section

variable {w : Word} {rest : List Word} {padding : List UInt8}

theorem span_cons_of_full (h : 0 ∉ w.bytes) :
    span (w :: rest) = (w.bytes ++ (span rest).1, (span rest).2 + 1) := by
  have htake : w.bytes.takeWhile (· ≠ 0) = w.bytes :=
    takeWhile_eq_self_iff.mpr fun _ hb => decide_eq_true fun hz => h (hz ▸ hb)
  rw [span, htake]
  rfl

theorem span_cons_of_closed (h : 0 ∉ bytes) (hw : w.bytes = bytes ++ 0 :: padding) :
    span (w :: rest) = (bytes, 1) := by
  have hlength : bytes.length < 4 := by
    have : w.bytes.length = 4 := rfl
    simp [hw] at this
    omega
  have hne (b : UInt8) (hb : b ∈ bytes) : decide (b ≠ 0) := decide_eq_true fun hz => h (hz ▸ hb)
  have htake : w.bytes.takeWhile (· ≠ 0) = bytes := by
    rw [hw, takeWhile_append_of_pos hne]
    simp
  simp only [span, htake, hlength, if_true]

end

-- The zero byte stands in the last word, after at most three others.
theorem span_pack (h : 0 ∉ bytes) (rest : List Word) :
    span (pack bytes ++ rest) = (bytes, (pack bytes).length) := by
  fun_induction pack bytes
  case case1 b₀ b₁ b₂ b₃ bytes hi =>
    have hw := Word.byte_ofBytes b₀ b₁ b₂ b₃
    have hfull : 0 ∉ (Word.ofBytes b₀ b₁ b₂ b₃).bytes := hw ▸ fun h' => h (mem_append_left bytes h')
    rw [cons_append, span_cons_of_full hfull, hi fun h' => h (mem_append_right [b₀, b₁, b₂, b₃] h'),
      hw]
    rfl
  case case5 => exact span_cons_of_closed h (show _ = [] ++ 0 :: [0, 0, 0] from rfl)
  all_goals exact span_cons_of_closed h (Word.byte_ofBytes ..)

variable {text : String}

theorem flatMap_utf8EncodeChar (text : String) :
    text.toList.flatMap String.utf8EncodeChar = text.toByteArray.data.toList := by
  conv => rhs; rw [← String.ofList_toList (s := text), String.toByteArray_ofList]
  exact toList_data_toByteArray.symm

theorem span_encode (h : '\x00' ∉ text.toList) (rest : List Word) :
    span (encode text ++ rest) = (text.toList.flatMap String.utf8EncodeChar,
      (encode text).length) := by
  refine span_pack (fun hz => ?_) rest
  obtain ⟨c, hc, hb⟩ := mem_flatMap.mp hz
  exact Utf8.ne_zero_of_mem_encodeChar (fun heq => h (heq ▸ hc)) hb rfl

theorem decode_encode (h : '\x00' ∉ text.toList) (rest : List Word) :
    decode (encode text ++ rest) = text := by
  rw [decode, span_encode h, Utf8.decode_encode, String.ofList_toList]

theorem wordCount_encode (h : '\x00' ∉ text.toList) (rest : List Word) :
    wordCount (encode text ++ rest) = (encode text).length := by
  rw [wordCount, span_encode h]

end Shader.Text.Literal
