import Shader.Instrument.BufferAddress
import Shader.Instrument.DescriptorIndexing
import Shader.Instrument.Link
import Shader.Instrument.RayQuery

namespace Shader

def load (words : List Word) : Except EditError Module :=
  (Module.ofWords words).mapError fun
    | .refused e => .refused e
    | .fault f => .fault f

def Draft.ofWords (words : List Word) : Except EditError Draft := do
  Draft.ofBinary (← load words).toBinary

structure Pipeline extends Workspace where
  analysis : Module

namespace Pipeline

def hasMagic (words : List Word) : Bool :=
  words.head?.any fun w => w == Header.magicNumber || w == Header.magicNumber.swapBytes

def new (words : List Word) : Except EditError Pipeline := do
  unless hasMagic words do throw .magic
  let m ← load words
  return { analysis := m, draft := ← Draft.ofBinary m.toBinary, notes := m.notes }

def checks (m : Module) (s : Settings) : List Check :=
  (if s.descriptorIndexing then [DescriptorIndexing.check m s] else [])
    ++ (if s.bufferAddress then [BufferAddress.check m] else [])
    ++ (if s.rayQuery then [RayQuery.check] else [])

def runCheck (limit : Option Nat) (c : Check) : Instrumenting Nat := do
  let count ← c.run limit
  Instrumenting.report [.instrumented c.title count]
  return count

def limit? (s : Settings) : Option Nat :=
  if s.limit = 0 then none else some s.limit.toNat

def runChecks (m : Module) (s : Settings) : Instrumenting Nat :=
  (checks m s).foldlM (fun total c => return total + (← runCheck (limit? s) c)) 0

-- Links every helper that was requested. After this none is, even if one could not be linked.
def linkHelpers (library : String → Option (List Word)) : Instrumenting Unit := do
  let requests := (← get).requests
  modify fun w => { w with requests := [] }
  requests.forM (Instrumenting.linkRequest library)

-- Does a step of the instrumentation. The pipeline is left as the step left it, also by a failure.
def step {α : Type} (p : Pipeline) (i : Instrumenting α) : Except EditError α × Pipeline :=
  match i p.toWorkspace with
  | .ok a w => (.ok a, { p with toWorkspace := w })
  | .error e w => (.error e, { p with toWorkspace := w })

def run (p : Pipeline) (s : Settings) : Except EditError Nat × Pipeline :=
  p.step (runChecks p.analysis s)

def link (p : Pipeline) (library : String → Option (List Word)) :
    Except EditError Unit × Pipeline :=
  p.step (linkHelpers library)

def words (p : Pipeline) : List Word :=
  p.draft.words

def takeNotes (p : Pipeline) : List Note × Pipeline :=
  (p.notes, { p with notes := [] })

end Pipeline

def instrument (words : List Word) (s : Settings) (library : String → Option (List Word)) :
    Except EditError (List Word) := do
  let p ← Pipeline.new words
  let (count, p) := p.run s
  let _ ← count
  let (linked, p) := p.link library
  linked
  return p.words

end Shader
