import Mathlib.Algebra.Group.Nat.Defs
import Zaphyl.Text
/-!
# FloatText — decimal floating-point literals

What a literal denotes, before rounding: an infinity, no number, or an integer times a power of ten.  It rounds to a
binary32 zero when it is at most half the least subnormal, `2⁻¹⁵⁰` (the tie goes to even).
-/
namespace Text

inductive FloatText
  | infinite
  | nan
  | decimal (mantissa : Nat) (exponent : Int)
deriving DecidableEq

namespace FloatText

def unsigned (s : Str) : Str := if s.head? = some '+' ∨ s.head? = some '-' then s.tail else s

def parseExponent (s : Str) : Option Int :=
  (digits (unsigned s)).map (fun n => if s.head? = some '-' then -(n : Int) else n)

def parseDecimal (s : Str) : Option FloatText :=
  let whole := s.takeWhile Char.isDigit
  let rest := s.dropWhile Char.isDigit
  let fraction := if rest.head? = some '.' then rest.tail.takeWhile Char.isDigit else []
  let rest := if rest.head? = some '.' then rest.tail.dropWhile Char.isDigit else rest
  (digits (whole ++ fraction)).bind (fun mantissa =>
    if rest = [] then some (.decimal mantissa (-fraction.length))
    else if rest.head? = some 'e' ∨ rest.head? = some 'E' then
      (parseExponent rest.tail).map (fun e => .decimal mantissa (e - fraction.length))
    else none)

def parse (s : Str) : Option FloatText :=
  let number := asciiLower (unsigned s)
  if number = "inf".toList ∨ number = "infinity".toList then some .infinite
  else if number = "nan".toList then some .nan
  else parseDecimal (unsigned s)

/-- Whether the binary32 nearest to the literal is zero. -/
def isZero32 : FloatText → Bool
  | infinite => false
  | nan => false
  | decimal mantissa exponent => mantissa == 0 || (exponent < 0 && mantissa * 2 ^ 150 ≤ 10 ^ (-exponent).toNat)

example : (parse "0.000".toList).map isZero32 = some true ∧ (parse "1e-46".toList).map isZero32 = some true ∧
    (parse "1e-45".toList).map isZero32 = some false ∧ parse ".".toList = none := by decide

end FloatText
end Text
