import Vivarium.Step

/-!
What a simulation is configured with, and which configurations cannot be run.
-/
namespace Vivarium

structure Config where
  width : UInt32
  height : UInt32
  /-- Most agents that act, or objects that move, as one chunk. -/
  chunkSize : UInt64
  /-- Workers to use; `none` leaves the number to the host. -/
  workers : Option UInt64
  seed : UInt64
  totalSteps : UInt64
  deriving DecidableEq

/-- Why a configuration is refused. -/
inductive ConfigError where
  | emptyGrid (width height : Nat)
  | zeroChunk
  | zeroWorkers
  | other (reason : String)

namespace ConfigError

def reason : ConfigError → String
  | emptyGrid w h => s!"grid must be at least 1×1, got {w}×{h}"
  | zeroChunk => "parallelization_threshold must be positive"
  | zeroWorkers => "num_threads must be positive when set"
  | other reason => reason

def message (e : ConfigError) : String := "configuration error: " ++ e.reason

end ConfigError

namespace Config

def sized (width height : UInt32) : Config := ⟨width, height, 1000, none, 0, 0⟩

instance : Inhabited Config := ⟨sized 1 1⟩

/-- The faults are looked for in this order. -/
def validate (c : Config) : Except ConfigError Unit := do
  if c.width = 0 ∨ c.height = 0 then throw (.emptyGrid c.width.toNat c.height.toNat)
  if c.chunkSize = 0 then throw .zeroChunk
  if c.workers = some 0 then throw .zeroWorkers

/-- The step at which a whole run stops. -/
def endStep (c : Config) : Step := ⟨c.totalSteps⟩

end Config
end Vivarium
