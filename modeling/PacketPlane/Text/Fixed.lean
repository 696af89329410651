/-! Floating-point numbers with a fixed count of decimal places. -/

namespace PacketPlane.Fixed

/-- The quotient of two numbers, rounded to the nearest, a tie to the even one. -/
def roundDiv (num den : Nat) : Nat :=
  -- Twice the remainder is compared with the divisor.
  let quotient := num / den
  let twice := 2 * (num % den)
  if twice > den || (twice == den && quotient % 2 == 1) then quotient + 1 else quotient

/-- A number with three decimal places. -/
def threePlaces (thousandths : Nat) : String :=
  -- The places are filled up with zeros.
  let places := toString (thousandths % 1000)
  toString (thousandths / 1000) ++ "." ++ "".pushn '0' (3 - places.length) ++ places

/-- A floating-point number with three decimal places. -/
def render (x : Float) : String :=
  -- The exact value of the bits is rounded once.
  if x.isNaN then "NaN"
  else
    let bits := x.toBits.toNat
    let sign := if bits ≥ 1 <<< 63 then "-" else ""
    let exponent := (bits >>> 52) % (1 <<< 11)
    let fraction := bits % (1 <<< 52)
    if exponent = 2047 then sign ++ "inf"
    else
      let mantissa := if exponent = 0 then fraction else fraction + (1 <<< 52)
      let scale := max exponent 1
      let thousandths :=
        if scale ≥ 1075 then (mantissa * 1000) <<< (scale - 1075)
        else roundDiv (mantissa * 1000) (1 <<< (1075 - scale))
      sign ++ threePlaces thousandths

end PacketPlane.Fixed
