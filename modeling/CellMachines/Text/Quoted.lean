import CellMachines.Text.Glyph

/-!
# Quoted text

A text that is quoted in a message stands between double quotes.  Quotes,
backslashes and the common controls have two-character escapes, every other
character without a glyph is written by its code point in lower-case hexadecimal
digits between braces, and the rest is written as it is.
-/

namespace CellMachines.Text.Quoted

/-- The written form of one character between the quotes. -/
def encodeChar (character : Char) : List Char :=
  match character with
  | '\x00' => ['\\', '0']
  | '\t' => ['\\', 't']
  | '\r' => ['\\', 'r']
  | '\n' => ['\\', 'n']
  | '\\' => ['\\', '\\']
  | '"' => ['\\', '"']
  | other =>
    if hasGlyph other then [other]
    else ['\\', 'u', '\x7b'] ++ Nat.toDigits 16 other.toNat ++ ['\x7d']

def encode (text : String) : String :=
  String.ofList ('"' :: text.toList.flatMap encodeChar ++ ['"'])

end CellMachines.Text.Quoted
