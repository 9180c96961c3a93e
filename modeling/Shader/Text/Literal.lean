import Shader.Word
import Shader.Text.Utf8

namespace Shader.Text.Literal

-- The bytes before the first zero byte, and the number of words up to it. Without a zero byte the
-- string takes every word.
def span : List Word → List UInt8 × Nat
  | [] => ([], 0)
  | w :: rest =>
    let bytes := w.bytes.takeWhile (· ≠ 0)
    if bytes.length < 4 then (bytes, 1) else (bytes ++ (span rest).1, (span rest).2 + 1)

def decode (words : List Word) : String :=
  .ofList (Utf8.decode (span words).1)

def wordCount (words : List Word) : Nat :=
  (span words).2

-- Packs bytes into words after a closing zero byte, filling up with zeros.
def pack : List UInt8 → List Word
  | b₀ :: b₁ :: b₂ :: b₃ :: rest => .ofBytes b₀ b₁ b₂ b₃ :: pack rest
  | [b₀, b₁, b₂] => [.ofBytes b₀ b₁ b₂ 0]
  | [b₀, b₁] => [.ofBytes b₀ b₁ 0 0]
  | [b₀] => [.ofBytes b₀ 0 0 0]
  | [] => [0]

def encode (text : String) : List Word :=
  pack (text.toList.flatMap String.utf8EncodeChar)

end Shader.Text.Literal
