import Shader.Registry

namespace Shader

inductive Decoration where
  | block | bufferBlock | arrayStride | builtIn | patch | aliased | nonWritable | nonReadable
  | location | component | binding | descriptorSet | offset | linkageAttributes
  | inputAttachmentIndex | passthrough | perPrimitive | perTask | perVertex
  | other (n : Nat)
  deriving DecidableEq, Repr

namespace Decoration

def number : Decoration → Nat
  | .block => 2
  | .bufferBlock => 3
  | .arrayStride => 6
  | .builtIn => 11
  | .patch => 15
  | .aliased => 20
  | .nonWritable => 24
  | .nonReadable => 25
  | .location => 30
  | .component => 31
  | .binding => 33
  | .descriptorSet => 34
  | .offset => 35
  | .linkageAttributes => 41
  | .inputAttachmentIndex => 43
  | .passthrough => 5250
  | .perPrimitive => 5271
  | .perTask => 5273
  | .perVertex => 5285
  | .other n => n

def registry : Registry :=
  [⟨0, 12⟩, ⟨13, 35⟩, ⟨4469, 2⟩, ⟨4487, 2⟩, ⟨4999, 1⟩, ⟨5019, 2⟩, ⟨5078, 1⟩, ⟨5091, 1⟩,
   ⟨5248, 1⟩, ⟨5250, 1⟩, ⟨5252, 1⟩, ⟨5256, 1⟩, ⟨5271, 3⟩, ⟨5285, 1⟩, ⟨5300, 1⟩, ⟨5355, 2⟩,
   ⟨5386, 1⟩, ⟨5398, 4⟩, ⟨5599, 1⟩, ⟨5602, 1⟩, ⟨5607, 2⟩, ⟨5624, 5⟩, ⟨5634, 3⟩, ⟨5822, 2⟩,
   ⟨5825, 12⟩, ⟨5899, 4⟩, ⟨5905, 1⟩, ⟨5907, 1⟩, ⟨5909, 1⟩, ⟨5914, 2⟩, ⟨5917, 3⟩, ⟨5921, 1⟩,
   ⟨5944, 1⟩, ⟨6080, 1⟩, ⟨6085, 1⟩, ⟨6087, 1⟩, ⟨6140, 1⟩, ⟨6147, 2⟩, ⟨6168, 1⟩, ⟨6170, 1⟩,
   ⟨6172, 2⟩, ⟨6175, 9⟩, ⟨6442, 2⟩]

def ofAssigned : Nat → Decoration
  | 2 => .block
  | 3 => .bufferBlock
  | 6 => .arrayStride
  | 11 => .builtIn
  | 15 => .patch
  | 20 => .aliased
  | 24 => .nonWritable
  | 25 => .nonReadable
  | 30 => .location
  | 31 => .component
  | 33 => .binding
  | 34 => .descriptorSet
  | 35 => .offset
  | 41 => .linkageAttributes
  | 43 => .inputAttachmentIndex
  | 5250 => .passthrough
  | 5271 => .perPrimitive
  | 5273 => .perTask
  | 5285 => .perVertex
  | n => .other n

def ofNumber? (n : Nat) : Option Decoration :=
  if registry.assigns n then some (ofAssigned n) else none

end Decoration

end Shader
