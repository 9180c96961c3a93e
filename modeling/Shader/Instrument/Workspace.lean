import Shader.Draft.Guard
import Shader.Note

namespace Shader

structure HelperRequest where
  name : String
  function : Id
  deriving DecidableEq, Repr

structure Workspace where
  draft : Draft
  requests : List HelperRequest := []
  notes : List Note := []

abbrev Instrumenting := EStateM EditError Workspace

namespace Instrumenting

def edit {α : Type} (e : Editing α) : Instrumenting α := fun w =>
  match e w.draft with
  | .ok a d => .ok a { w with draft := d }
  | .error err d => .error err { w with draft := d }

def ofChecked {α : Type} : Checked α → Instrumenting α
  | .ok a => return a
  | .error f => throw (.fault f)

def report (notes : List Note) : Instrumenting Unit :=
  modify fun w => { w with notes := w.notes ++ notes }

def request (name : String) : Instrumenting Id := do
  match (← get).requests.find? (·.name == name) with
  | some r => return r.function
  | none =>
    let function ← edit Draft.allocate
    modify fun w => { w with requests := w.requests ++ [⟨name, function⟩] }
    return function

def callHelper (name : String) (type : Id) (arguments : List Id) :
    Instrumenting (Id × Statement) := do
  let function ← request name
  let result ← edit (Draft.allocateTyped type)
  return (result, .new .functionCall (some type) (some result) (function :: arguments))

end Instrumenting
end Shader
