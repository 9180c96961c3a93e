namespace Shader.Text.Utf8

def replacement : Char := '\uFFFD'

inductive State where
  | start
  -- In a character: how many bytes it still needs, the range the next one must lie in, and the
  -- payload read so far.
  | within (owed : Nat) (low high : UInt8) (payload : Nat)
  deriving DecidableEq, Repr

-- The first byte of a character. A byte that can not be one is replaced on its own.
def first (b : UInt8) : List Char × State :=
  if b < 0x80 then ([.ofNat b.toNat], .start)
  else if 0xC2 ≤ b ∧ b ≤ 0xDF then ([], .within 1 0x80 0xBF (b.toNat % 0x20))
  else if b = 0xE0 then ([], .within 2 0xA0 0xBF 0)
  else if b = 0xED then ([], .within 2 0x80 0x9F 0xD)
  else if 0xE1 ≤ b ∧ b ≤ 0xEF then ([], .within 2 0x80 0xBF (b.toNat % 0x10))
  else if b = 0xF0 then ([], .within 3 0x90 0xBF 0)
  else if b = 0xF4 then ([], .within 3 0x80 0x8F 4)
  else if 0xF1 ≤ b ∧ b ≤ 0xF3 then ([], .within 3 0x80 0xBF (b.toNat % 0x08))
  else ([replacement], .start)

-- One byte: the characters it completes, and the state after it. A byte that does not continue the
-- character before it starts a new one.
def feed : State → UInt8 → List Char × State
  | .start, b => first b
  | .within owed low high payload, b =>
    if low ≤ b ∧ b ≤ high then
      let payload := payload * 0x40 + b.toNat % 0x40
      if owed = 1 then ([.ofNat payload], .start) else ([], .within (owed - 1) 0x80 0xBF payload)
    else
      (replacement :: (first b).1, (first b).2)

def decodeFrom : State → List UInt8 → List Char
  | .start, [] => []
  | .within .., [] => [replacement]
  | s, b :: rest => (feed s b).1 ++ decodeFrom (feed s b).2 rest

def decode (bytes : List UInt8) : List Char :=
  decodeFrom .start bytes

end Shader.Text.Utf8
