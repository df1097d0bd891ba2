import StableSupply.Power

/-! # Nearest binary floating-point numbers

The 64-bit pattern of the double nearest to a ratio of natural numbers, computed exactly; of two
that are equally near the one with an even last bit. -/

namespace StableSupply.Binary64

/-- The quotient rounded to the nearest integer, a half to the even neighbour. -/
def roundDiv (num den : Nat) : Nat :=
  let q := num / den
  let twice := 2 * (num % den)
  if twice < den then q
  else if den < twice then q + 1
  else q + q % 2

/-- The greatest `e` with `2 ^ e ≤ num / den`, for a ratio other than zero. -/
def exponent (num den : Nat) : Int :=
  let e : Int := num.log2 - den.log2
  if num * 2 ^ (-e).toNat < den * 2 ^ e.toNat then e - 1 else e

/-- The pattern of the double nearest to `num / den`. -/
def ofRatio (num den : Nat) : UInt64 :=
  if num = 0 ∨ den = 0 then 0
  else
    let e := max (exponent num den) (-1022)
    if e > 1023 then 0x7ff0000000000000
    else
      let shift := 52 - e
      let mantissa := roundDiv (num * 2 ^ shift.toNat) (den * 2 ^ (-shift).toNat)
      .ofNat ((e + 1022).toNat * 2 ^ 52 + mantissa)

end StableSupply.Binary64
