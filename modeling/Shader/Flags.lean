namespace Shader

class FlagKind (F : Type) where
  all : List F
  position : F → Nat
  text : F → String

structure FlagSet (F : Type) where
  bits : BitVec 32
  deriving DecidableEq, Repr

namespace FlagSet

variable {F : Type} [FlagKind F]

def union (a b : FlagSet F) : FlagSet F := ⟨a.bits ||| b.bits⟩

def inter (a b : FlagSet F) : FlagSet F := ⟨a.bits &&& b.bits⟩

def diff (a b : FlagSet F) : FlagSet F := ⟨a.bits &&& ~~~b.bits⟩

def ofFlag (f : F) : FlagSet F := ⟨.twoPow 32 (FlagKind.position f)⟩

instance : EmptyCollection (FlagSet F) := ⟨⟨0⟩⟩
instance : Inhabited (FlagSet F) := ⟨∅⟩
instance : Union (FlagSet F) := ⟨union⟩
instance : Inter (FlagSet F) := ⟨inter⟩
instance : SDiff (FlagSet F) := ⟨diff⟩
instance : Singleton F (FlagSet F) := ⟨ofFlag⟩
instance : Insert F (FlagSet F) := ⟨fun f s => ofFlag f ∪ s⟩

def isEmpty (s : FlagSet F) : Bool := s.bits == 0

def intersects (a b : FlagSet F) : Bool := a.bits &&& b.bits != 0

def contains (a b : FlagSet F) : Bool := a.bits &&& b.bits == b.bits

def has (s : FlagSet F) (f : F) : Bool := s.intersects (ofFlag f)

def count (s : FlagSet F) : Nat := (List.range 32).countP (s.bits.getLsbD ·)

def full : FlagSet F := (FlagKind.all : List F).foldl (fun s f => s ∪ ofFlag f) ∅

def toList (s : FlagSet F) : List F := FlagKind.all.filter s.has

def text (s : FlagSet F) : String :=
  match s.toList.map FlagKind.text with
  | [] => "empty()"
  | names => " | ".intercalate names

end FlagSet
end Shader
