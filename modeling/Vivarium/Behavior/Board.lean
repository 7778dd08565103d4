import Std.Data.TreeMap
import Vivarium.AgentId

/-!
The notice board that the agents of one step share: values under keys, each of one of five kinds. A
value is found only by a reader who asks for its kind.
-/
namespace Vivarium

inductive Value where
  | word (n : UInt32)
  | int (n : Int)
  | real (v : Float)
  | text (s : String)
  | agent (id : AgentId)
  deriving DecidableEq

namespace Value

def word? : Value → Option UInt32
  | word n => some n
  | _ => none

def int? : Value → Option Int
  | int n => some n
  | _ => none

def real? : Value → Option Float
  | real v => some v
  | _ => none

def text? : Value → Option String
  | text s => some s
  | _ => none

def agent? : Value → Option AgentId
  | agent id => some id
  | _ => none

end Value

structure Board where
  values : Std.TreeMap String Value

namespace Board

def empty : Board := ⟨∅⟩

def get? (b : Board) (key : String) : Option Value := b.values[key]?

def contains (b : Board) (key : String) : Bool := b.values.contains key

def size (b : Board) : Nat := b.values.size

def isEmpty (b : Board) : Bool := b.values.isEmpty

/-- Replaces what is there. -/
def put (b : Board) (key : String) (v : Value) : Board := ⟨b.values.insert key v⟩

/-- Puts a value under a key that is vacant; answers whether it was. -/
def claim (b : Board) (key : String) (v : Value) : Bool × Board :=
  if b.contains key then (false, b) else (true, b.put key v)

def text (b : Board) : String := "StepSnapshot \x7b len: " ++ toString b.size ++ " \x7d"

end Board
end Vivarium
