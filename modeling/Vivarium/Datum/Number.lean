import Vivarium.Datum.Json
import Vivarium.Text.FixedPlaces

/-!
Numbers as data where a numeral would not do: a real number can be given by its bits, as `0x` and
sixteen hexadecimal digits, or by name if it is not finite, and a large whole number as a text of
decimal digits.
-/
namespace Vivarium.Datum

def bitsOf (digits : List Char) : UInt64 :=
  .ofNat (digits.foldl (fun n c => n * 16 + (Json.hexDigit? c).getD 0) 0)

/-- A number, or a text that stands for one. -/
def float? : Datum → Option Float
  | .text "nan" => some (0.0 / 0.0)
  | .text "inf" => some (1.0 / 0.0)
  | .text "-inf" => some (-1.0 / 0.0)
  | .text s =>
    match s.toList with
    | '0' :: 'x' :: digits => some (.ofBits (bitsOf digits))
    | _ => none
  | d => d.real?

def hexText (width n : Nat) : String := Text.padLeft width (String.ofList (Nat.toDigits 16 n))

/-- Always a text; every bit of a number is kept, except those of an undefined one. -/
def ofExact (v : Float) : Datum :=
  if v.isNaN then .text "nan"
  else if v.isInf then .text (if 0.0 < v then "inf" else "-inf")
  else .text ("0x" ++ hexText 16 v.toBits.toNat)

/-- A whole number, or the text of one. -/
def int? : Datum → Option Int
  | .whole n => some n
  | .text s => some (Json.intOfDigits s.toList)
  | _ => none

def nat? (d : Datum) : Option Nat := d.int?.map Int.toNat

/-- A whole number as the text of its digits. -/
def ofLarge (n : Int) : Datum := .text (toString n)

end Vivarium.Datum
