/-!
The numbers that positions, headings and wall crossings are made of. Geometry, routing and the
object store are written once over `Scalar`; simulations run them on binary64 numbers. Nothing is
assumed here about how the operations round.
-/
namespace Vivarium

class Scalar (F : Type) extends
    Add F, Sub F, Mul F, Div F, Neg F, LT F, LE F, BEq F, OfScientific F where
  ltDecidable : DecidableLT F
  leDecidable : DecidableLE F
  /-- Exact for natural numbers below `2 ^ 32`. -/
  ofNat : Nat → F
  /-- The remainder of a division rounded toward zero, with the sign of the dividend. -/
  remainder : F → F → F
  /-- The whole part of a number that is not negative. -/
  wholePart : F → Nat
  isFinite : F → Bool
  /-- The adjacent number toward positive infinity. -/
  nextUp : F → F
  pi : F

/-- Sine and cosine, kept apart from `Scalar` because no law of routing rests on their values. -/
class Trig (F : Type) where
  sin : F → F
  cos : F → F

namespace Scalar
variable {F : Type} [Scalar F]

instance (priority := low) : DecidableLT F := ltDecidable
instance (priority := low) : DecidableLE F := leDecidable

def zero : F := ofNat 0

def one : F := ofNat 1

def tau : F := pi + pi

/-- The adjacent number toward negative infinity. -/
def nextDown (v : F) : F := -nextUp (-v)

def abs (v : F) : F := if v < zero then -v else v

/-- The larger of two numbers; an operand that is no number gives way to the other. -/
def larger (a b : F) : F := if a < b then b else if a == a then a else b

/-- The smaller of two numbers; an operand that is no number gives way to the other. -/
def smaller (a b : F) : F := if b < a then b else if a == a then a else b

end Scalar
end Vivarium
