import Mathlib.Data.Int.Log
import Mathlib.Data.Rat.Floor
import Mathlib.Tactic

/-!
# IEEE 754 double precision numbers

A double is a NaN, an infinity or an exact rational value.  Every operation
computes the exact rational result and rounds it once, to the nearest double
and to the even one of two equally near.  The sign of a zero is not kept:
comparisons cannot see it, and nothing here divides by a computed zero.
-/

namespace SoulonWallet

inductive Binary64 where
  | nan
  | infinity (negative : Bool)
  | finite (value : ℚ)
  deriving DecidableEq

namespace Binary64

/-- Nearest integer, the even one when two are equally near. -/
def roundHalfEven (value : ℚ) : ℤ :=
  let lower := ⌊value⌋
  let rest := value - lower
  if rest < 1 / 2 then lower
  else if 1 / 2 < rest then lower + 1
  else if lower % 2 = 0 then lower
  else lower + 1

/-- Exponent of the last binary place of the doubles near `value`: 52 places
below its leading one, and never below the subnormal place. -/
def lastPlace (value : ℚ) : ℤ :=
  max (Int.log 2 |value| - 52) (-1074)

def round (value : ℚ) : Binary64 :=
  let place : ℚ := 2 ^ lastPlace value
  let rounded := roundHalfEven (value / place) * place
  if 2 ^ 1024 ≤ |rounded| then infinity (value < 0)
  else finite rounded

def ofInt (value : ℤ) : Binary64 :=
  round value

def mul : Binary64 → Binary64 → Binary64
  | nan, _ => nan
  | _, nan => nan
  | infinity negative, infinity negative' => infinity (negative ^^ negative')
  | infinity negative, finite factor =>
      if factor = 0 then nan else infinity (negative ^^ (factor < 0))
  | finite factor, infinity negative =>
      if factor = 0 then nan else infinity (negative ^^ (factor < 0))
  | finite left, finite right => round (left * right)

def div : Binary64 → Binary64 → Binary64
  | nan, _ => nan
  | _, nan => nan
  | infinity _, infinity _ => nan
  | infinity negative, finite divisor => infinity (negative ^^ (divisor < 0))
  | finite _, infinity _ => finite 0
  | finite value, finite divisor =>
      if divisor = 0 then
        if value = 0 then nan else infinity (value < 0)
      else round (value / divisor)

/-- The comparison `left >= right`, false as soon as one side is a NaN. -/
def ge : Binary64 → Binary64 → Bool
  | nan, _ => false
  | _, nan => false
  | infinity negative, infinity negative' => !negative || negative'
  | infinity negative, finite _ => !negative
  | finite _, infinity negative => negative
  | finite left, finite right => right ≤ left

/-- The comparison `left < right`, false as soon as one side is a NaN. -/
def lt : Binary64 → Binary64 → Bool
  | nan, _ => false
  | _, nan => false
  | left, right => !ge left right

end Binary64

end SoulonWallet
