import TradingStrategy.Text.Graphic

/-!
Quoted names in messages.

Owns:
- the quoted form of a text: a quote, a backslash and the characters that do not show as themselves are escaped, all
  else stands for itself;
- lists of quoted names in brackets, and names joined by a separator.
-/

namespace TradingStrategy.Text

/-- The hexadecimal digits of a code point in braces, behind `u`. -/
def codePointEscape (c : Char) : List Char :=
  ['\\', 'u', '\x7b'] ++ Nat.toDigits 16 c.toNat ++ ['\x7d']

/-- The form of one character inside quotes. -/
def quotedChar (c : Char) : List Char :=
  if c = '"' then ['\\', '"']
  else if c = '\\' then ['\\', '\\']
  else if c = '\n' then ['\\', 'n']
  else if c = '\t' then ['\\', 't']
  else if c = '\r' then ['\\', 'r']
  else if c = '\x00' then ['\\', '0']
  else if isGraphic c then [c]
  else codePointEscape c

/-- A text between quotes, with its special characters escaped. -/
def quoted (text : String) : String :=
  String.ofList ('"' :: text.toList.flatMap quotedChar ++ ['"'])

def joined (separator : String) (texts : List String) : String :=
  String.intercalate separator texts

/-- A bracketed list of quoted names. -/
def quotedList (names : List String) : String :=
  "[" ++ joined ", " (names.map quoted) ++ "]"

end TradingStrategy.Text
