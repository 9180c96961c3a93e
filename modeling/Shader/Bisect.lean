namespace Shader

-- The first position below `n` at which `p` fails, if `p` holds up to some position and fails from
-- there on.
def partitionPoint (p : Nat → Bool) (n : Nat) : Nat :=
  go n 0 n
where
  go : Nat → Nat → Nat → Nat
    | 0, low, _ => low
    | steps + 1, low, high =>
      if low < high then
        let middle := (low + high) / 2
        if p middle then go steps (middle + 1) high else go steps low middle
      else low

end Shader
