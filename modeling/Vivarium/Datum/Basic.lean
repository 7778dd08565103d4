/-!
Self-describing data: the form in which values are stored and exchanged. Whole numbers are read where
real numbers are expected, but not the other way round.
-/
namespace Vivarium

inductive Datum where
  | null
  | bool (value : Bool)
  | whole (value : Int)
  | real (value : Float)
  | text (value : String)
  | list (items : List Datum)
  | fields (items : List (String × Datum))
  deriving Inhabited

namespace Datum

def isNull : Datum → Bool
  | null => true
  | _ => false

/-- The value of a named field, of several the last one; null if there is none. -/
def get (d : Datum) (name : String) : Datum :=
  match d with
  | fields items => ((items.reverse.find? fun i => i.1 == name).map (·.2)).getD null
  | _ => null

def items : Datum → List Datum
  | list items => items
  | _ => []

/-- The values of the named fields, from fields with names or from a list in the order of the names.
Fields that are not asked for are passed over; a missing one has no value. -/
def parts? (names : List String) : Datum → Option (List (Option Datum))
  | fields items => some (names.map fun n => (items.reverse.find? fun i => i.1 == n).map (·.2))
  | list items => if items.length = names.length then some (items.map some) else none
  | _ => none

/-- A whole number below the bound. -/
def natBelow? (bound : Nat) : Datum → Option Nat
  | whole n => if 0 ≤ n ∧ n < bound then some n.toNat else none
  | _ => none

def word32? (d : Datum) : Option UInt32 := (d.natBelow? UInt32.size).map UInt32.ofNat

def word64? (d : Datum) : Option UInt64 := (d.natBelow? UInt64.size).map UInt64.ofNat

def ofNat (n : Nat) : Datum := whole n

def real? : Datum → Option Float
  | real v => some v
  | whole n =>
    let v := Float.ofScientific n.natAbs false 0
    some (if n < 0 then -v else v)
  | _ => none

def bool? : Datum → Option Bool
  | bool b => some b
  | _ => none

def text? : Datum → Option String
  | text s => some s
  | _ => none

/-- Nothing where nothing is written, or where it is written as null. -/
def optional? {α : Type} (read : Datum → Option α) : Option Datum → Option (Option α)
  | none => some none
  | some null => some none
  | some d => (read d).map some

end Datum
end Vivarium
