import Vivarium.Geometry.Point

/-!
Numbers with a fixed count of decimal places. The exact binary value is rounded once, and a half
goes to the even neighbour; a negative number keeps its sign when it rounds to zero.
-/
namespace Vivarium.Text

/-- The quotient rounded to the nearest whole number, a half to the even one. -/
def roundHalfEven (num den : Nat) : Nat :=
  let q := num / den
  let twice := 2 * (num % den)
  if den < twice || (twice == den && q % 2 == 1) then q + 1 else q

def padLeft (width : Nat) (s : String) : String :=
  String.ofList (List.replicate (width - s.length) '0') ++ s

def fixedPlaces (places : Nat) (v : Float) : String :=
  if v.isNaN then "NaN"
  else
    let sign := if Binary64.isNegative v then "-" else ""
    if v.isInf then sign ++ "inf"
    else
      let scale := Nat.pow 10 places
      let n := roundHalfEven (Binary64.magnitude v * scale) Binary64.unitsPerOne
      sign ++ toString (n / scale) ++ "." ++ padLeft places (toString (n % scale))

end Vivarium.Text

namespace Vivarium

/-- A point is written with three decimals. -/
def Point.text (p : Point Float) : String :=
  "(" ++ Text.fixedPlaces 3 p.x ++ ", " ++ Text.fixedPlaces 3 p.y ++ ")"

end Vivarium
