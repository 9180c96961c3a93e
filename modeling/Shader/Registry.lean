namespace Shader

structure Run where
  first : Nat
  count : Nat
  deriving DecidableEq, Repr

abbrev Registry := List Run

namespace Registry

-- How many assigned numbers come before `n`, if `n` is assigned.
def position? : Registry → Nat → Option Nat
  | [], _ => none
  | run :: rest, n =>
    if run.first ≤ n ∧ n < run.first + run.count then some (n - run.first)
    else (position? rest n).map (run.count + ·)

def assigns (r : Registry) (n : Nat) : Bool :=
  r.any fun run => run.first ≤ n && n < run.first + run.count

end Registry
end Shader
