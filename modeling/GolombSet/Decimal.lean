set_option autoImplicit false

namespace GolombSet.Decimal

/-- Of two nearest integers the even one. -/
def roundEven (x : Rat) : Int :=
  let below := x.floor
  let rest := x - below
  if rest < 1 / 2 then below
  else if 1 / 2 < rest then below + 1
  else below + below % 2

/-- The exponent of the greatest power of two that is not above `x`. -/
def exponent (x : Rat) : Int :=
  let estimate : Int := x.num.natAbs.log2 - x.den.log2
  if x < (2 : Rat) ^ estimate then estimate - 1 else estimate

/-- The nearest number with 53 significant bits. -/
def toBinary (x : Rat) : Rat :=
  let unit := (2 : Rat) ^ (exponent x - 52)
  roundEven (x / unit) * unit

def quotient (dividend divisor : Nat) : String :=
  let x : Rat := dividend / divisor
  let thousandths := if dividend = 0 then 0 else (roundEven (1000 * toBinary x)).toNat
  let places := toString (thousandths % 1000)
  let padding := String.ofList (List.replicate (3 - places.length) '0')
  toString (thousandths / 1000) ++ "." ++ padding ++ places

end GolombSet.Decimal
