import AudioCatalog.Text.Hex
import AudioCatalog.Text.Printable

/-!
# Quoted text in messages

A message that has to show an arbitrary text puts it between double quotes and
escapes what could not be told apart on a screen.
-/

namespace AudioCatalog.Quoted

/-- The escape of one character, or the character itself when it is printable. -/
def escape (c : Char) : List Char :=
  if c = '\x00' then ['\\', '0']
  else if c = '\t' then ['\\', 't']
  else if c = '\n' then ['\\', 'n']
  else if c = '\r' then ['\\', 'r']
  else if c = '"' || c = '\\' then ['\\', c]
  else if isPrintable c then [c]
  else ['\\', 'u', '\x7b'] ++ Hex.natDigits c.toNat ++ ['\x7d']

end AudioCatalog.Quoted

namespace AudioCatalog

/-- A text between double quotes, with escapes. -/
def quoted (text : String) : String :=
  String.ofList ('"' :: text.toList.flatMap Quoted.escape ++ ['"'])

end AudioCatalog
