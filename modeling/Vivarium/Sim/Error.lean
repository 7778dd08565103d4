import Vivarium.Agent.Pool
import Vivarium.Behavior.Basic

/-!
Why a simulation cannot be set up, or refuses or breaks off an operation.
-/
namespace Vivarium

/-- Which kind of change is allowed. Agents act while it is planning, requests are carried out while it
is modification, and between steps it is idle. -/
inductive Phase where
  | planning | modification | idle
  deriving DecidableEq

def Phase.text : Phase → String
  | planning => "Planning"
  | modification => "Modification"
  | idle => "Idle"

inductive SimError where
  | wrongPhase (expected actual : Phase)
  | unknownPopulation (population : Population)
  | outside (population : Population) (position : Point Float)
  | idsExhausted
  /-- The grid that was given does not have the configured size. -/
  | gridSize (width height configWidth configHeight : Nat)
  | other (reason : String)
  | workers (reason : String)
  | behavior (cause : BehaviorError)
  | grid (cause : GridError)
  | store (cause : StoreError Float)
  | agent (cause : AgentError)
  | config (cause : ConfigError)

namespace SimError

def message : SimError → String
  | wrongPhase expected actual =>
    s!"operation requires phase {expected.text} but the simulation is in {actual.text}"
  | unknownPopulation p => s!"no prototype registered for population {Text.quoted p}"
  | outside p position => s!"addition of {Text.quoted p} at {position.text} lies outside the space"
  | idsExhausted => "agent id space exhausted"
  | gridSize w h cw ch =>
    s!"simulation configuration error: grid is {w}×{h} but the config says {cw}×{ch}"
  | other reason => s!"simulation configuration error: {reason}"
  | workers reason => s!"worker pool error: {reason}"
  | behavior cause => cause.message
  | grid cause => cause.message
  | store cause => cause.message
  | agent cause => cause.message
  | config cause => cause.message

end SimError
end Vivarium
