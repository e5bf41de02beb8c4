/-!
Ranges of code points.

Owns: tables of characters as closed ranges of their code points, and the look-up of a character in one.
-/

namespace TradingStrategy.Text

/-- A character lies in one of some closed ranges of code points. -/
def liesIn (ranges : List (Nat × Nat)) (c : Char) : Bool :=
  ranges.any fun range => range.1 ≤ c.toNat && c.toNat ≤ range.2

end TradingStrategy.Text
