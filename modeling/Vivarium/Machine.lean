/-!
What is taken for granted of the machine. Sums of machine words are checked: where no word holds a
sum, the program stops. A vector has fewer than 2^63 bytes, and the program stops, too, where it would
need more; memory for any vector there can be is taken to be there.
-/
namespace Vivarium.Machine

/-- The sum of two words, if there is a word for it. -/
def sum? (a b : Nat) : Option Nat := if a + b < UInt64.size then some (a + b) else none

/-- The least number of bytes that no vector has. -/
def vectorLimit : Nat := 1 <<< 63

end Vivarium.Machine
