import Chunkwise.Text.Visible

/-! Quoted text, as messages and traces show it: the text between double quotes,
with every character that would mislead a reader written as an escape. -/

namespace Chunkwise.Text.Quoted

/-- A character by its code point, in hexadecimal between braces. -/
def codePoint (c : Char) : List Char :=
  ['\\', 'u', '\x7b'] ++ Nat.toDigits 16 c.toNat ++ ['\x7d']

/-- How one character stands between the quotes. -/
def escape (c : Char) : List Char :=
  if c = '"' then ['\\', '"']
  else if c = '\\' then ['\\', '\\']
  else if c = '\n' then ['\\', 'n']
  else if c = '\r' then ['\\', 'r']
  else if c = '\t' then ['\\', 't']
  else if c = '\x00' then ['\\', '0']
  else if isVisible c then [c]
  else codePoint c

def encode (cs : List Char) : List Char := cs.flatMap escape

end Chunkwise.Text.Quoted

namespace Chunkwise.Text

/-- The text between double quotes, escaped. -/
def quoted (s : String) : String :=
  String.ofList ('"' :: Quoted.encode s.toList ++ ['"'])

end Chunkwise.Text
