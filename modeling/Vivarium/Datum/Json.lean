import Vivarium.Datum.Basic
import Vivarium.Text.Shortest

/-!
JSON as a notation for data. A number without fraction and exponent that fits into 64 bits is whole,
any other is real; a negative zero is real.
-/
namespace Vivarium.Json

def skipBlanks (cs : List Char) : List Char :=
  cs.dropWhile fun c => c == ' ' || c == '\n' || c == '\t' || c == '\r'

def hexDigit? (c : Char) : Option Nat :=
  if '0' ≤ c ∧ c ≤ '9' then some (c.toNat - '0'.toNat)
  else if 'a' ≤ c ∧ c ≤ 'f' then some (c.toNat - 'a'.toNat + 10)
  else if 'A' ≤ c ∧ c ≤ 'F' then some (c.toNat - 'A'.toNat + 10)
  else none

def hex4? : List Char → Option (Nat × List Char)
  | a :: b :: c :: d :: rest => do
    let n := ((← hexDigit? a) * 16 + (← hexDigit? b)) * 256 + (← hexDigit? c) * 16 + (← hexDigit? d)
    return (n, rest)
  | _ => none

/-- The character behind a backslash and a `u`: one unit of sixteen bits, or a pair of surrogates. -/
def unicode? (cs : List Char) : Option (Char × List Char) := do
  let (n, rest) ← hex4? cs
  if n < 0xD800 || 0xDFFF < n then return (Char.ofNat n, rest)
  match rest with
  | '\\' :: 'u' :: rest =>
    let (m, rest) ← hex4? rest
    if n < 0xDC00 ∧ 0xDC00 ≤ m ∧ m ≤ 0xDFFF then
      return (Char.ofNat (0x10000 + (n - 0xD800) * 0x400 + (m - 0xDC00)), rest)
    else none
  | _ => none

def plainEscape? : Char → Option Char
  | 'n' => some '\n'
  | 't' => some '\t'
  | 'r' => some '\r'
  | 'b' => some '\x08'
  | 'f' => some '\x0c'
  | '"' => some '"'
  | '\\' => some '\\'
  | '/' => some '/'
  | _ => none

/-- The rest of a string, with what was read of it, the latest first. -/
def stringTail? : Nat → List Char → List Char → Option (String × List Char)
  | 0, _, _ => none
  | _ + 1, _, [] => none
  | _ + 1, acc, '"' :: rest => some (String.ofList acc.reverse, rest)
  | n + 1, acc, '\\' :: 'u' :: rest =>
    match unicode? rest with
    | some (c, rest) => stringTail? n (c :: acc) rest
    | none => none
  | n + 1, acc, '\\' :: e :: rest =>
    match plainEscape? e with
    | some c => stringTail? n (c :: acc) rest
    | none => none
  | n + 1, acc, c :: rest => stringTail? n (c :: acc) rest

def natOfDigits (cs : List Char) : Nat :=
  cs.foldl (fun n c => if c.isDigit then n * 10 + (c.toNat - '0'.toNat) else n) 0

def intOfDigits : List Char → Int
  | '-' :: cs => -Int.ofNat (natOfDigits cs)
  | cs => Int.ofNat (natOfDigits cs)

/-- The real number that is nearest to a decimal one. -/
def realOf (cs : List Char) : Float :=
  let negative := cs.head? == some '-'
  let cs := if negative then cs.drop 1 else cs
  let isExponentMark (c : Char) : Bool := c == 'e' || c == 'E'
  let mantissa := cs.takeWhile fun c => !isExponentMark c
  let exponent := (cs.dropWhile fun c => !isExponentMark c).drop 1
  let places := (mantissa.dropWhile (· != '.')).drop 1
  let digits := natOfDigits mantissa
  let scale := intOfDigits exponent - Int.ofNat places.length
  let v := if digits = 0 then 0.0 else Float.ofScientific digits (scale < 0) scale.natAbs
  if negative then -v else v

def numberOf (cs : List Char) : Datum :=
  let n := intOfDigits cs
  let isWhole := cs.all fun c => c.isDigit || c == '-'
  let fits := if n < 0 then 2 * n.natAbs ≤ UInt64.size else n.natAbs < UInt64.size
  if isWhole && cs != ['-', '0'] && decide fits then .whole n
  else .real (realOf cs)

def isNumeric (c : Char) : Bool :=
  c.isDigit || c == '-' || c == '+' || c == '.' || c == 'e' || c == 'E'

mutual

def value? : Nat → List Char → Option (Datum × List Char)
  | 0, _ => none
  | n + 1, cs =>
    match skipBlanks cs with
    | '\x7b' :: rest => fields? n #[] rest
    | '[' :: rest => items? n #[] rest
    | '"' :: rest => (stringTail? n [] rest).map fun (s, rest) => (.text s, rest)
    | 't' :: 'r' :: 'u' :: 'e' :: rest => some (.bool true, rest)
    | 'f' :: 'a' :: 'l' :: 's' :: 'e' :: rest => some (.bool false, rest)
    | 'n' :: 'u' :: 'l' :: 'l' :: rest => some (.null, rest)
    | cs =>
      let digits := cs.takeWhile isNumeric
      if digits.isEmpty then none else some (numberOf digits, cs.dropWhile isNumeric)

def items? : Nat → Array Datum → List Char → Option (Datum × List Char)
  | 0, _, _ => none
  | n + 1, acc, cs =>
    match skipBlanks cs with
    | ']' :: rest => some (.list acc.toList, rest)
    | ',' :: rest => items? n acc rest
    | rest =>
      match value? n rest with
      | some (v, rest) => items? n (acc.push v) rest
      | none => none

def fields? : Nat → Array (String × Datum) → List Char → Option (Datum × List Char)
  | 0, _, _ => none
  | n + 1, acc, cs =>
    match skipBlanks cs with
    | '\x7d' :: rest => some (.fields acc.toList, rest)
    | ',' :: rest => fields? n acc rest
    | '"' :: rest =>
      match stringTail? n [] rest with
      | none => none
      | some (name, rest) =>
        match skipBlanks rest with
        | ':' :: rest =>
          match value? n rest with
          | some (v, rest) => fields? n (acc.push (name, v)) rest
          | none => none
        | _ => none
    | _ => none

end

def read? (s : String) : Option Datum :=
  let cs := s.toList
  (value? (2 * cs.length + 2) cs).map (·.1)

def writeChar (out : String) (c : Char) : String :=
  if c = '"' then out ++ "\\\""
  else if c = '\\' then out ++ "\\\\"
  else if c.toNat < 0x20 then
    let digits := Nat.toDigits 16 c.toNat
    out ++ "\\u" ++ String.ofList (List.replicate (4 - digits.length) '0' ++ digits)
  else out.push c

def writeString (out s : String) : String := (s.toList.foldl writeChar (out.push '"')).push '"'

mutual

/-- Writes a value behind `out`. -/
def write (out : String) : Datum → String
  | .null => out ++ "null"
  | .bool true => out ++ "true"
  | .bool false => out ++ "false"
  | .whole n => out ++ toString n
  | .real v => out ++ (if v.isFinite then Text.shortest v else "null")
  | .text s => writeString out s
  | .list items => (writeItems (out.push '[') true items).push ']'
  | .fields items => (writeFields (out.push '\x7b') true items).push '\x7d'

def writeItems (out : String) (first : Bool) : List Datum → String
  | [] => out
  | d :: rest => writeItems (write (if first then out else out.push ',') d) false rest

def writeFields (out : String) (first : Bool) : List (String × Datum) → String
  | [] => out
  | (name, d) :: rest =>
    let out := if first then out else out.push ','
    writeFields (write ((writeString out name).push ':') d) false rest

end

def text (d : Datum) : String := write "" d

end Vivarium.Json
