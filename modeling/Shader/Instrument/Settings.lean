import Shader.Word

namespace Shader

structure Settings where
  descriptorIndexing : Bool := false
  bufferAddress : Bool := false
  rayQuery : Bool := false
  -- How many statements each check may instrument; zero for no limit.
  limit : Word := 0
  skipConstantInBounds : Bool := false
  deriving DecidableEq, Repr

inductive SettingValue where
  | flag (b : Bool)
  | integer (n : Int)
  | other
  deriving DecidableEq, Repr

namespace SettingValue

def flag? : SettingValue → Option Bool
  | .flag b => some b
  | _ => none

def word? : SettingValue → Option Word
  | .integer n => if 0 ≤ n ∧ n ≤ Word.greatest then some (.ofNat n.toNat) else none
  | _ => none

end SettingValue

namespace Settings

def isEnabled (s : Settings) : Bool :=
  s.descriptorIndexing || s.bufferAddress || s.rayQuery

def names : List String :=
  ["descriptor_indexing", "buffer_device_address", "ray_query", "max_instrumented_count",
   "skip_constant_in_bounds"]

def ofValues? : List SettingValue → Option Settings
  | [descriptorIndexing, bufferAddress, rayQuery, limit, skip] => do
    return {
      descriptorIndexing := ← descriptorIndexing.flag?
      bufferAddress := ← bufferAddress.flag?
      rayQuery := ← rayQuery.flag?
      limit := ← limit.word?
      skipConstantInBounds := ← skip.flag? }
  | _ => none

def ofConfiguration? (get? : String → Option SettingValue) : Option Settings := do
  ofValues? (← names.mapM get?)

def values (s : Settings) : List SettingValue :=
  [.flag s.descriptorIndexing, .flag s.bufferAddress, .flag s.rayQuery, .integer s.limit.toNat,
   .flag s.skipConstantInBounds]

end Settings
end Shader
