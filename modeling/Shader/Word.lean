namespace Shader

abbrev Word := UInt32

abbrev Id := Word

namespace Word

def greatest : Nat := 0xFFFFFFFF

def ofBytes (b₀ b₁ b₂ b₃ : UInt8) : Word :=
  .ofNat (b₀.toNat + 0x100 * b₁.toNat + 0x10000 * b₂.toNat + 0x1000000 * b₃.toNat)

def byte (w : Word) (i : Nat) : UInt8 :=
  .ofNat (w.toNat >>> (8 * i))

def bytes (w : Word) : List UInt8 :=
  [w.byte 0, w.byte 1, w.byte 2, w.byte 3]

def swapBytes (w : Word) : Word :=
  ofBytes (w.byte 3) (w.byte 2) (w.byte 1) (w.byte 0)

def low (w : Word) : Nat :=
  w.toNat % 0x10000

def high (w : Word) : Nat :=
  w.toNat / 0x10000

def ofHalves (h l : Nat) : Word :=
  .ofNat (h * 0x10000 + l)

end Word

def capped (n : Nat) : Nat :=
  min n Word.greatest

def cappedAdd (a b : Nat) : Nat :=
  capped (a + b)

def cappedMul (a b : Nat) : Nat :=
  capped (a * b)

def fittingAdd? (a b : Nat) : Option Nat :=
  if a + b ≤ Word.greatest then some (a + b) else none

def fittingMul? (a b : Nat) : Option Nat :=
  if a * b ≤ Word.greatest then some (a * b) else none

def Id.text (id : Id) : String :=
  "%" ++ toString id.toNat

end Shader
