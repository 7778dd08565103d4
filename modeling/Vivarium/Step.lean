import Vivarium.Machine

/-!
Time: a counter of completed steps, of the width of a machine word.
-/
namespace Vivarium

structure Step where
  val : UInt64
  deriving DecidableEq

namespace Step

instance : Inhabited Step := ⟨⟨0⟩⟩

instance : Ord Step := ⟨fun a b => compare a.val b.val⟩

def zero : Step := ⟨0⟩

def index (s : Step) : Nat := s.val.toNat

/-- The step `count` steps later, as far as the counter reaches. -/
def advance? (s : Step) (count : UInt64) : Option Step :=
  (Machine.sum? s.index count.toNat).map fun n => ⟨.ofNat n⟩

/-- The next step. Where the counter reaches no further, which no run lives to see, it is the
first. -/
def next (s : Step) : Step := (s.advance? 1).getD .zero

/-- At its end the word of the counter wraps around. -/
theorem next_val (s : Step) : s.next.val = s.val + 1 := by
  have least : s.val.toNat < UInt64.size := s.val.toNat_lt_size
  have one : (1 : UInt64).toNat = 1 := rfl
  apply UInt64.toNat_inj.mp
  rw [UInt64.toNat_add, one, next, advance?, Machine.sum?, index, one]
  split
  · rename_i fits
    rw [Option.map_some, Option.getD_some, UInt64.toNat_ofNat_of_lt' fits, Nat.mod_eq_of_lt fits]
  · rename_i last
    have whole : s.val.toNat + 1 = UInt64.size := by omega
    rw [whole]
    rfl

/-- Steps from `earlier` to `s`, none if `earlier` comes later. -/
def since (s earlier : Step) : UInt64 := if earlier.val ≤ s.val then s.val - earlier.val else 0

def text (s : Step) : String := s!"S{s.index}"

end Step
end Vivarium
