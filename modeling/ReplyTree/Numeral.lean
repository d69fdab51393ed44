import ReplyTree.Decimal

/- The number that a decimal numeral stands for, exactly. A numeral stands for the double
   nearest to it, so a long one may stand for a number other than the one it spells. -/
namespace ReplyTree

/-- A number among the doubles and the whole numbers. A finite one counts the units of which
    the smallest positive double is one. -/
inductive Amount where
  | lowest
  | finite (units : Int)
  | highest
  deriving DecidableEq, Repr

namespace Amount

def ofInt (n : Int) : Amount := .finite (n * Nat.pow 2 1074)

def neg : Amount → Amount
  | .lowest => .highest
  | .finite units => .finite (-units)
  | .highest => .lowest

def less : Amount → Amount → Bool
  | .finite m, .finite n => decide (m < n)
  | .lowest, b => !decide (b = .lowest)
  | .highest, _ => false
  | .finite _, b => decide (b = .highest)

def ofMagnitude (x : Float) : Amount :=
  let bits := x.toBits.toNat % Nat.pow 2 63
  let field := bits / Nat.pow 2 52
  let mantissa := if field = 0 then bits else bits % Nat.pow 2 52 + Nat.pow 2 52
  if field = 2047 then .highest else .finite (mantissa * Nat.pow 2 (field - 1) : Nat)

end Amount

namespace Numeral

def parts (cs : List Char) : List Char × List Char × List Char :=
  let mantissa := cs.takeWhile (· != 'e')
  ⟨mantissa.takeWhile (· != '.'), (mantissa.dropWhile (· != '.')).drop 1,
    (cs.dropWhile (· != 'e')).drop 1⟩

def integer : List Char → Int
  | '-' :: digits => -(Decimal.value digits : Int)
  | '+' :: digits => Decimal.value digits
  | digits => Decimal.value digits

def nearest (cs : List Char) : Float :=
  let (front, back, exponent) := parts cs
  let power : Int := integer exponent - back.length
  Float.ofScientific (Decimal.value (front ++ back)) (power < 0) power.natAbs

def amount (numeral : String) : Amount :=
  let magnitude (cs : List Char) : Amount :=
    if cs.all Char.isAlpha then .highest else .ofMagnitude (nearest cs)
  match numeral.toList with
  | '-' :: cs => (magnitude cs).neg
  | cs => magnitude cs

end Numeral

end ReplyTree
