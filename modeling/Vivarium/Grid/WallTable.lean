import Vivarium.Grid.Basic
import Vivarium.Text.Csv
import Vivarium.Text.Quoted

/-!
Tables of walls: a header that names the columns `x`, `y` and `direction` in any order, among others
perhaps, and one wall a record. The first record that is no wall is reported, and no part of the
table is used then.
-/
namespace Vivarium

inductive WallTableError where
  | unreadable
  /-- A record that does not hold the three columns, or not numbers where they belong. -/
  | malformed
  | badDirection (row : Nat) (text : String)
  | other (reason : String)

namespace WallTableError

/-- There is no fixed wording for faults that lie in the reading itself. -/
def message? : WallTableError → Option String
  | unreadable => none
  | malformed => none
  | badDirection row text => some
      s!"wall list parse error: row {row}: invalid direction {Text.quoted text}, expected N, E, S or W"
  | other reason => some s!"wall list parse error: {reason}"

end WallTableError

namespace WallTable

/-- The places of the three columns in a record. -/
structure Columns where
  x : Nat
  y : Nat
  direction : Nat

def utf8? (field : List UInt8) : Option String := String.fromUTF8? ⟨field.toArray⟩

/-- The only place of a name, if it has exactly one. -/
def place? (names : List String) (name : String) : Option Nat :=
  if names.count name = 1 then names.findIdx? (· == name) else none

/-- A header that is no text names no columns; the first three are taken then. -/
def columns? (header : Csv.Record) : Option Columns :=
  match header.mapM utf8? with
  | none => some ⟨0, 1, 2⟩
  | some names => do
    return ⟨← place? names "x", ← place? names "y", ← place? names "direction"⟩

def digit? (base : Nat) (c : Char) : Option Nat :=
  let value :=
    if '0' ≤ c ∧ c ≤ '9' then some (c.toNat - '0'.toNat)
    else if 'a' ≤ c ∧ c ≤ 'f' then some (c.toNat - 'a'.toNat + 10)
    else if 'A' ≤ c ∧ c ≤ 'F' then some (c.toNat - 'A'.toNat + 10)
    else none
  value.filter (· < base)

/-- At least one digit, after a plus sign perhaps, and a value that fits into 32 bits. -/
def numeral? (base : Nat) (cs : List Char) : Option UInt32 :=
  let cs := match cs with
    | '+' :: rest => rest
    | cs => cs
  if cs.isEmpty then none
  else do
    let digits ← cs.mapM (digit? base)
    let n := digits.foldl (fun n d => n * base + d) 0
    if n < UInt32.size then return UInt32.ofNat n else none

/-- Decimal, or hexadecimal behind `0x`. -/
def coordinate? (s : String) : Option UInt32 :=
  match s.toList with
  | '0' :: 'x' :: rest => numeral? 16 rest
  | cs => numeral? 10 cs

/-- The texts of the three columns, with the coordinates read. -/
def fields? (width : Nat) (columns : Option Columns) (record : Csv.Record) :
    Option (UInt32 × UInt32 × String) := do
  if record.length ≠ width then none
  let texts ← record.mapM utf8?
  let columns ← columns
  let x ← coordinate? (← texts[columns.x]?)
  let y ← coordinate? (← texts[columns.y]?)
  return (x, y, ← texts[columns.direction]?)

def wallsFrom (width : Nat) (columns : Option Columns) :
    Nat → List Csv.Record → Except WallTableError (List Wall)
  | _, [] => .ok []
  | row, record :: rest =>
    match fields? width columns record with
    | none => .error .malformed
    | some (x, y, text) =>
      match Direction.ofName? text with
      | none => .error (.badDirection row text)
      | some d => (wallsFrom width columns (row + 1) rest).map (⟨x, y, d⟩ :: ·)

/-- The walls of a table. Records are counted from one, the header not among them. -/
def read (bytes : List UInt8) : Except WallTableError (List Wall) :=
  match Csv.records bytes with
  | [] => .ok []
  | header :: rows => wallsFrom header.length (columns? header) 1 rows

/-- The walls of a table that may not be there. -/
def load (source : Option (List UInt8)) : Except WallTableError (List Wall) :=
  match source with
  | none => .error .unreadable
  | some bytes => read bytes

end WallTable
end Vivarium
