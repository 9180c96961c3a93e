import Std.Data.TreeMap
import Shader.Decoration.Set
import Shader.Stream.Instruction

namespace Shader

abbrev DecorationTable := Std.TreeMap Id DecorationSet

namespace DecorationTable

def of (t : DecorationTable) (id : Id) : DecorationSet :=
  t.getD id {}

def update (t : DecorationTable) (id : Id) (f : DecorationSet → DecorationSet) : DecorationTable :=
  t.insert id (f (t.of id))

def addDirect (t : DecorationTable) (i : Instruction) : Checked DecorationTable := do
  match i.op?, ← i.decoration? with
  | some .decorate, some d | some .decorateId, some d =>
    return t.update (← i.word 1) (·.onBase (·.add d (i.word? 3)))
  | some .memberDecorate, some d =>
    return t.update (← i.word 1) (·.onMember (← i.word 2) (·.add d (i.word? 4)))
  | _, _ => return t

def pairs : List Word → List (Word × Word)
  | a :: b :: rest => (a, b) :: pairs rest
  | _ => []

-- Copies the decorations of a group to its targets. A group that has none is skipped.
def addGroup (t : DecorationTable) (i : Instruction) : Checked DecorationTable :=
  match i.op? with
  | some .groupDecorate => do
    let some group := t[← i.word 1]? | return t
    return (i.words.drop 2).foldl (fun t id => t.update id (·.onBase (·.merge group.base))) t
  | some .groupMemberDecorate => do
    let some group := t[← i.word 1]? | return t
    return (pairs (i.words.drop 2)).foldl
      (fun t (id, member) => t.update id (·.onMember member (·.merge group.base))) t
  | _ => return t

def ofAnnotations (annotations : List Instruction) : Checked DecorationTable := do
  annotations.foldlM addGroup (← annotations.foldlM addDirect ∅)

end DecorationTable
end Shader
