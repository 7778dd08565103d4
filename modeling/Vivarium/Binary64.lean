import Vivarium.Scalar

/-!
Binary64 numbers as scalars. Every finite number is a whole multiple of `2 ^ -1074`; its
`magnitude` is that multiple, and the remainder of a division is taken on magnitudes, exactly.
-/
namespace Vivarium.Binary64

/-- How many units of magnitude make one. -/
def unitsPerOne : Nat := 1 <<< 1074

/-- The leading bit of a significand, which is not stored. -/
def leadingBit : Nat := 1 <<< 52

/-- The absolute value of a finite number, in units of `2 ^ -1074`. -/
def magnitude (v : Float) : Nat :=
  let bits := v.toBits.toNat
  let exponent := bits / leadingBit % 2048
  let fraction := bits % leadingBit
  if exponent = 0 then fraction else (fraction + leadingBit) <<< (exponent - 1)

def isNegative (v : Float) : Bool := v.toBits >>> 63 == 1

/-- Numbers ordered by sign and then by size, the undefined ones outermost. -/
def rank (v : Float) : Int :=
  let bits := v.toBits.toNat
  if isNegative v then 0x7fffffffffffffff - bits else bits

/-- The number of the given magnitude, for a magnitude whose last set bit is among its leading 53. -/
def ofMagnitude (negative : Bool) (m : Nat) : Float :=
  let shift := Nat.log2 m - 52
  let bits := UInt64.ofNat (shift * leadingBit + (m >>> shift))
  .ofBits (if negative then bits ||| 0x8000000000000000 else bits)

/-- The exact remainder of the division rounded toward zero. -/
def remainder (a b : Float) : Float :=
  if !a.isFinite || b.isNaN || b == 0.0 then 0.0 / 0.0
  else if !b.isFinite || a.abs < b.abs then a
  else ofMagnitude (isNegative a) (magnitude a % magnitude b)

/-- The adjacent number toward positive infinity. -/
def nextUp (v : Float) : Float :=
  if v.isNaN || (!v.isFinite && 0.0 < v) then v
  else if v == 0.0 then .ofBits 1
  else if 0.0 < v then .ofBits (v.toBits + 1)
  else .ofBits (v.toBits - 1)

instance : Scalar Float where
  ltDecidable := Float.decLt
  leDecidable := Float.decLe
  ofNat n := n.toUInt32.toFloat
  remainder := remainder
  wholePart v := v.toUInt32.toNat
  isFinite := Float.isFinite
  nextUp := nextUp
  pi := .ofBits 0x400921fb54442d18

instance : Trig Float where
  sin := Float.sin
  cos := Float.cos

end Vivarium.Binary64
