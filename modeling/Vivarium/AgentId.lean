import Std.Data.TreeSet

/-!
Names of agents. Ids are handed out in ascending order and never twice; the largest word is no id.
-/
namespace Vivarium

structure AgentId where
  val : UInt32
  deriving DecidableEq, Hashable

/-- A population is known by its name. -/
abbrev Population := String

namespace AgentId

/-- The word that names no agent. -/
def invalid : AgentId := ⟨0xFFFFFFFF⟩

instance : Inhabited AgentId := ⟨invalid⟩

instance : Ord AgentId := ⟨fun a b => compare a.val b.val⟩

instance : Std.TransOrd AgentId :=
  inferInstanceAs (Std.TransCmp (compareOn AgentId.val))

instance : Std.LawfulEqOrd AgentId where
  eq_of_compare {a b} h := by
    have word : compare a.val b.val = .eq := h
    have same : a.val = b.val := Std.compare_eq_iff_eq.1 word
    cases a; cases b; congr

def index (a : AgentId) : Nat := a.val.toNat

/-- The id after `a`, where there is one. -/
def next? (a : AgentId) : Option AgentId :=
  if a.index + 1 < invalid.index then some ⟨a.val + 1⟩ else none

/-- How many ids from `a` on are still free. -/
def remaining (a : AgentId) : Nat := invalid.index - a.index

def text (a : AgentId) : String := s!"AgentId({a.index})"

/-- In ascending order. -/
def sort (ids : List AgentId) : List AgentId := ids.mergeSort fun a b => a.val ≤ b.val

end AgentId
end Vivarium
