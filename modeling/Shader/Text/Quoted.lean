import Shader.Text.Unprintable

namespace Shader.Text.Quoted

def hex (c : Char) : List Char :=
  Nat.toDigits 16 c.toNat

def escape (c : Char) : List Char :=
  match c with
  | '"' => ['\\', '"']
  | '\\' => ['\\', '\\']
  | '\n' => ['\\', 'n']
  | '\r' => ['\\', 'r']
  | '\t' => ['\\', 't']
  | '\x00' => ['\\', '0']
  | c => if isUnprintable c then ['\\', 'u', '\x7b'] ++ hex c ++ ['\x7d'] else [c]

def quote (text : String) : String :=
  .ofList ('"' :: text.toList.flatMap escape ++ ['"'])

end Shader.Text.Quoted
