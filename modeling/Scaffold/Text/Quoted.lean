import Scaffold.Text.Letter
import Scaffold.Text.Letter.Unprintable

/-!
# Quotations in messages

A text that a message quotes stands in double quotes. A quote and a backslash take
a backslash, the common controls have a letter, and any other character that cannot
be seen is written by its number.
-/

namespace Scaffold.Text

/-- A character with nothing to show for itself. -/
def isUnprintable (c : Char) : Bool :=
  if c.toNat < 128 then c.toNat < 32 || c.toNat == 127
  else Letter.inRanges Letter.unprintableRanges c.toNat

/-- A character in a quotation. -/
def quotedChar (c : Char) : List Char :=
  match c with
  | '"' => ['\\', '"']
  | '\\' => ['\\', '\\']
  | '\n' => ['\\', 'n']
  | '\r' => ['\\', 'r']
  | '\t' => ['\\', 't']
  | '\x00' => ['\\', '0']
  | c =>
    if isUnprintable c then
      ['\\', 'u', '{'] ++ Nat.toDigits 16 c.toNat ++ ['}']
    else [c]

/-- The text as a message quotes it. -/
def quoted (s : String) : String :=
  String.ofList ('"' :: s.toList.flatMap quotedChar ++ ['"'])

end Scaffold.Text
