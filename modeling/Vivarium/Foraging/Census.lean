import Vivarium.Sim.Journal

/-!
Births, deaths and kills, counted from the journal of a simulation.
-/
namespace Vivarium.Foraging

structure Census where
  births : Nat
  deaths : Nat
  kills : Nat
  deriving DecidableEq

namespace Census

def record (c : Census) : Notice → Census
  | .created .. => { c with births := c.births + 1 }
  | .removed .. => { c with deaths := c.deaths + 1 }
  | .reported _ e => if e.source = "hunt" then { c with kills := c.kills + 1 } else c
  | .started _ => c
  | .ended _ => c

def ofJournal (j : Journal) : Census := j.foldl record ⟨0, 0, 0⟩

end Census
end Vivarium.Foraging
