import Vivarium.Binary64

/-!
The shortest decimal that reads back as a given binary64 number, and its written form. A decimal
reads back if it lies in the interval of reals that round to the number; for one digit, two digits
and so on the two neighbours of the number on that decimal grid are tried.
-/
namespace Vivarium.Text

/-- The number `digits * 10 ^ exponent`. -/
structure Decimal where
  digits : Nat
  exponent : Int
  deriving DecidableEq

/-- The reals that round to a positive number, in units of `2 ^ -1076`, with the number itself. -/
structure RoundingInterval where
  low : Nat
  value : Nat
  high : Nat
  /-- The two ends round to the number as well. -/
  closed : Bool

namespace RoundingInterval

/-- How many units make one. -/
def unitsPerOne : Nat := 4 * Binary64.unitsPerOne

def ofFloat (v : Float) : RoundingInterval :=
  let m := Binary64.magnitude v
  let shift := Nat.log2 m - 52
  let unit := 1 <<< shift
  let significand := m / unit
  let below := if significand == Binary64.leadingBit && shift != 0 then unit else 2 * unit
  ⟨4 * m - below, 4 * m, 4 * m + 2 * unit, significand % 2 == 0⟩

/-- The multiple `n` of a grid lies in the interval. `scale` and `grid` turn both into whole
numbers. -/
def holds (r : RoundingInterval) (scale grid n : Nat) : Bool :=
  let p := n * grid
  if r.closed then r.low * scale ≤ p && p ≤ r.high * scale
  else r.low * scale < p && p < r.high * scale

/-- The multiple of `10 ^ k` in the interval that is nearest to the number, the upper of two equally
near ones. -/
def onGrid? (r : RoundingInterval) (k : Int) : Option Nat :=
  let scale := Nat.pow 10 (-k).toNat
  let grid := unitsPerOne * Nat.pow 10 k.toNat
  let num := r.value * scale
  let below := num / grid
  let up := r.holds scale grid (below + 1)
  let down := r.holds scale grid below
  if up && (!down || grid ≤ 2 * (num % grid)) then some (below + 1)
  else if down then some below
  else none

/-- The exponent of the leading decimal digit, found from the number's size. -/
def leading (r : RoundingInterval) : Int :=
  let whole := r.value / unitsPerOne
  if whole != 0 then Int.ofNat ((Nat.toDigits 10 whole).length - 1)
  else
    match (List.range 340).find? fun j => unitsPerOne ≤ r.value * Nat.pow 10 (j + 1) with
    | some j => -Int.ofNat (j + 1)
    | none => -340

/-- Seventeen digits always suffice. -/
def shortest (r : RoundingInterval) : Decimal :=
  let top := r.leading
  let attempts := (List.range 17).filterMap fun n =>
    let k := top - Int.ofNat n
    (r.onGrid? k).map fun digits => (⟨digits, k⟩ : Decimal)
  attempts.headD ⟨0, 0⟩

end RoundingInterval

namespace Decimal

/-- Positional from `10 ^ -4` to below `10 ^ 16`, with at least one decimal; otherwise the leading
digit, the rest behind a point, and the exponent. -/
def text (d : Decimal) : String :=
  let ds := Nat.toDigits 10 d.digits
  let lead := Int.ofNat (ds.length - 1) + d.exponent
  if -5 < lead && lead < 16 then
    if 0 ≤ d.exponent then
      String.ofList (ds ++ List.replicate d.exponent.toNat '0') ++ ".0"
    else if 0 ≤ lead then
      let cut := lead.toNat + 1
      String.ofList (ds.take cut) ++ "." ++ String.ofList (ds.drop cut)
    else
      "0." ++ String.ofList (List.replicate (-lead - 1).toNat '0' ++ ds)
  else
    let ds := (ds.reverse.dropWhile (· == '0')).reverse
    let mantissa := match ds with
      | first :: second :: rest => String.ofList (first :: '.' :: second :: rest)
      | _ => String.ofList ds
    mantissa ++ "e" ++ toString lead

end Decimal

/-- The shortest text of a number, with a decimal point or an exponent. -/
def shortest (v : Float) : String :=
  if v.isNaN then "NaN"
  else
    let sign := if Binary64.isNegative v then "-" else ""
    if v.isInf then sign ++ "inf"
    else if v == 0.0 then sign ++ "0.0"
    else sign ++ (RoundingInterval.ofFloat v).shortest.text

end Vivarium.Text
