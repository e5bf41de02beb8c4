import TradingStrategy.Text.CodeRange

/-!
White space, as the Unicode property White_Space lists it.

Owns:
- the table of blank characters (25 code points in 10 ranges);
- trimming of blank characters from either end of a text.

Every reader of this library that skips or trims blanks uses this table, except the readers of formats whose
standard names its own blanks.
-/

namespace TradingStrategy.Text

/-- Closed ranges of the code points with the property White_Space, ascending and apart. -/
def blankRanges : List (Nat × Nat) :=
  [(0x09, 0x0D), (0x20, 0x20), (0x85, 0x85), (0xA0, 0xA0), (0x1680, 0x1680), (0x2000, 0x200A),
   (0x2028, 0x2029), (0x202F, 0x202F), (0x205F, 0x205F), (0x3000, 0x3000)]

/-- A character is blank when its code point lies in one of the ranges. -/
def isBlank (c : Char) : Bool :=
  liesIn blankRanges c

/-- The characters without the blanks in front of them. -/
def skipBlanks (chars : List Char) : List Char :=
  chars.dropWhile isBlank

/-- The characters without the blanks at either end. -/
def trimChars (chars : List Char) : List Char :=
  (skipBlanks (skipBlanks chars).reverse).reverse

/-- The text without the blanks at either end. -/
def trim (text : String) : String :=
  String.ofList (trimChars text.toList)

/-- A text is blank when nothing is left of it after trimming. -/
def isBlankText (text : String) : Bool :=
  text.toList.all isBlank

theorem skipBlanks_length_le (chars : List Char) : (skipBlanks chars).length ≤ chars.length :=
  (List.dropWhile_sublist isBlank).length_le

end TradingStrategy.Text
