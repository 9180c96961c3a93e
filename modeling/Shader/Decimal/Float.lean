import Shader.Decimal.Shortest

namespace Shader.Decimal

structure Format where
  exponentBits : Nat
  fractionBits : Nat
  deriving DecidableEq, Repr

namespace Format

def half : Format := ⟨5, 10⟩
def single : Format := ⟨8, 23⟩
def double : Format := ⟨11, 52⟩

def leastExponent (f : Format) : Int :=
  3 - (1 <<< (f.exponentBits - 1) : Nat) - f.fractionBits - 1

end Format

inductive Value where
  | nan
  | infinite (negative : Bool)
  | zero (negative : Bool)
  -- `mantissa * 2 ^ exponent`; `narrow` when the neighbour below is half as far away as the one
  -- above.
  | finite (negative : Bool) (mantissa : Nat) (exponent : Int) (narrow : Bool)
  deriving DecidableEq, Repr

def Format.decode (f : Format) (bits : Nat) : Value :=
  let fraction := bits % 1 <<< f.fractionBits
  let exponent := (bits >>> f.fractionBits) % 1 <<< f.exponentBits
  let negative := (bits >>> (f.fractionBits + f.exponentBits)) % 2 = 1
  if exponent = 1 <<< f.exponentBits - 1 then
    if fraction = 0 then .infinite negative else .nan
  else if exponent = 0 then
    if fraction = 0 then .zero negative else .finite negative fraction f.leastExponent false
  else
    .finite negative (fraction + 1 <<< f.fractionBits) (f.leastExponent + exponent - 1)
      (fraction = 0 ∧ 1 < exponent)

def Value.widen (f : Format) : Value → Value
  | .finite negative mantissa exponent _ =>
    let missing := f.fractionBits - Nat.log2 mantissa
    .finite negative (mantissa <<< missing) (exponent - missing)
      (mantissa = 1 <<< Nat.log2 mantissa)
  | v => v

def signed (negative : Bool) (text : String) : String :=
  if negative then "-" ++ text else text

-- A zero keeps its sign, and what is not a number has none.
def Value.text : Value → String
  | .nan => "NaN"
  | .infinite negative => signed negative "inf"
  | .zero negative => signed negative "0"
  | .finite negative m q narrow => signed negative (shortest (.ofBinary m q narrow)).positional

-- A 16-bit value is written as the 32-bit value equal to it.
def halfText (bits : Nat) : String :=
  ((Format.half.decode bits).widen .single).text

def singleText (bits : Nat) : String :=
  (Format.single.decode bits).text

def doubleText (bits : Nat) : String :=
  (Format.double.decode bits).text

end Shader.Decimal
