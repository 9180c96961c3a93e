import Std.Data.TreeSet
import Shader.Stream.Instruction

namespace Shader

structure Trail (α : Type) where
  items : List α := []
  keys : Std.TreeSet Id := ∅

namespace Trail

variable {α : Type} (key : α → Id) (next : α → List α)

def add (t : Trail α) (a : α) : Trail α :=
  ⟨a :: t.items, t.keys.insert (key a)⟩

-- Meets items from the top of the stack until one leads on to others, which then go on top. Items
-- with a key met before are dropped.
def advance : (stack : List α) → Trail α → Trail α × List α
  | [], t => (t, [])
  | a :: stack, t =>
    if t.keys.contains (key a) then advance stack t
    else
      match next a with
      | [] => advance stack (t.add key a)
      | more => (t.add key a, more ++ stack)

def follow : (rounds : Nat) → (stack : List α) → Trail α → Trail α
  | 0, _, t => t
  | rounds + 1, stack, t =>
    match advance key next stack t with
    | (t, []) => t
    | (t, stack) => follow rounds stack t

end Trail

-- The items met from `start` on, in order, if at most `keys` keys lead on to others.
def search {α : Type} (key : α → Id) (next : α → List α) (keys : Nat) (start : α) : List α :=
  (Trail.follow key next (keys + 1) [start] {}).items.reverse

def checkedSearch {α : Type} (key : α → Id) (next : α → Checked (List α)) (keys : Nat) (start : α) :
    Checked (List α) := do
  let items := search key (fun a => (next a).toOption.getD []) keys start
  items.forM fun a => discard (next a)
  return items

end Shader
