namespace Shader.Decimal

structure Digits where
  digits : List Char
  exponent : Int
  deriving DecidableEq, Repr

structure Interval where
  low : Nat
  value : Nat
  high : Nat
  den : Nat
  closed : Bool
  deriving DecidableEq, Repr

namespace Interval

-- The interval of `m * 2 ^ q`. Below the least mantissa of an exponent the neighbours are half as
-- far apart, which `narrow` says.
def ofBinary (m : Nat) (q : Int) (narrow : Bool) : Interval :=
  let scale := 1 <<< (q - 2).toNat
  { low := (4 * m - if narrow then 1 else 2) * scale
    value := 4 * m * scale
    high := (4 * m + 2) * scale
    den := 1 <<< (2 - q).toNat
    closed := m % 2 = 0 }

def inUnits (i : Interval) (e : Int) : Interval :=
  let up := Nat.pow 10 (-e).toNat
  { i with
    low := i.low * up
    value := i.value * up
    high := i.high * up
    den := i.den * Nat.pow 10 e.toNat }

def Holds (i : Interval) (n : Nat) : Prop :=
  if i.closed then i.low ≤ n * i.den ∧ n * i.den ≤ i.high
  else i.low < n * i.den ∧ n * i.den < i.high

instance (i : Interval) (n : Nat) : Decidable (i.Holds n) := by
  unfold Holds
  infer_instance

def nearest? (i : Interval) : Option Nat :=
  let n := i.value / i.den
  match decide (i.Holds n), decide (i.Holds (n + 1)) with
  | true, true => if 2 * (i.value % i.den) < i.den then some n else some (n + 1)
  | true, false => some n
  | false, true => some (n + 1)
  | false, false => none

def leading (i : Interval) : Int :=
  if i.den ≤ i.value then (Nat.toDigits 10 (i.value / i.den)).length - 1
  else -below (Nat.toDigits 10 i.den).length 1
where
  below : Nat → Nat → Int
    | 0, k => k
    | steps + 1, k => if i.den ≤ i.value * Nat.pow 10 k then k else below steps (k + 1)

end Interval

-- No finite value of a format of up to 64 bits needs more digits.
def mostDigits : Nat := 17

-- Drops the zeros that a carry into a new leading digit leaves behind.
def trimmed (digits : List Char) : List Char :=
  match (digits.reverse.dropWhile (· == '0')).reverse with
  | [] => ['0']
  | digits => digits

def shortest (i : Interval) : Digits :=
  go i.leading mostDigits 0
where
  go (lead : Int) : Nat → Nat → Digits
    | 0, _ => ⟨['0'], lead⟩
    | left + 1, tried =>
      let unit := lead - tried
      match (i.inUnits unit).nearest? with
      | some n =>
        let digits := Nat.toDigits 10 n
        ⟨trimmed digits, unit + (digits.length - 1)⟩
      | none => go lead left (tried + 1)

def Digits.positional (d : Digits) : String :=
  let count := d.digits.length
  if d.exponent < 0 then
    "0." ++ .ofList (List.replicate (-d.exponent - 1).toNat '0' ++ d.digits)
  else
    let whole := d.exponent.toNat + 1
    if count ≤ whole then .ofList (d.digits ++ List.replicate (whole - count) '0')
    else .ofList (d.digits.take whole) ++ "." ++ .ofList (d.digits.drop whole)

end Shader.Decimal
