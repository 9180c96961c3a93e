import Shader.Word

namespace Shader

structure Version where
  major : UInt8
  minor : UInt8
  deriving DecidableEq, Repr

def Version.atLeast (v : Version) (major minor : UInt8) : Bool :=
  major < v.major || (v.major == major && minor ≤ v.minor)

def Version.word (v : Version) : Word :=
  .ofBytes 0 v.minor v.major 0

structure Header where
  magic : Word
  version : Version
  generator : Word
  bound : Word
  schema : Word
  deriving DecidableEq, Repr

namespace Header

def magicNumber : Word := 0x07230203

def length : Nat := 5

def words (h : Header) : List Word :=
  [h.magic, h.version.word, h.generator, h.bound, h.schema]

def tool (h : Header) : Nat :=
  h.generator.high

-- The header at the start of `words`: the magic number has to come first, and the outer bytes of
-- the version word have to be zero.
def read? : List Word → Option Header
  | magic :: version :: generator :: bound :: schema :: _ =>
    if magic = magicNumber ∧ version.byte 0 = 0 ∧ version.byte 3 = 0 then
      some ⟨magic, ⟨version.byte 2, version.byte 1⟩, generator, bound, schema⟩
    else none
  | _ => none

-- A module written in the other byte order shows by its first word; its words are swapped back.
def nativeOrder (words : List Word) : List Word :=
  if words.head? = some magicNumber.swapBytes then words.map Word.swapBytes else words

end Header
end Shader
