import Vivarium.Geometry.Motion
import Vivarium.Random.Stream
import Vivarium.Step
import Vivarium.Text.Quoted
import Vivarium.Text.Shortest

/-!
Agents and the messages between them. The part of an agent that its behaviour may write is its
`Body`; the rest belongs to the simulation. Where an agent is, the space knows.
-/
namespace Vivarium

structure Message (μ : Type) where
  sender : AgentId
  recipients : List AgentId
  content : μ

namespace Message
variable {μ : Type}

/-- A message to one recipient. -/
def direct (sender recipient : AgentId) (content : μ) : Message μ :=
  ⟨sender, [recipient], content⟩

def isAddressedTo (m : Message μ) (id : AgentId) : Bool := m.recipients.contains id

end Message

structure Body (σ : Type) where
  /-- The motion of the next movement; it stays until it is changed. -/
  motion : Motion Float
  rng : Stream
  state : σ

structure Agent (σ μ : Type) extends Body σ where
  id : AgentId
  population : Population
  active : Bool
  birthStep : Step
  /-- How often this storage was handed out again by the pool. -/
  incarnation : Nat
  /-- The messages delivered in the last completed step. -/
  inbox : List (Message μ)

namespace Agent
variable {σ μ : Type}

/-- How many bytes an agent takes whose state takes none. -/
def bareBytes : Nat := 112

/-- An inactive agent, as a pattern for others. -/
def prototype (population : Population) (state : σ) : Agent σ μ where
  motion := .rest
  rng := .dormant
  state
  id := .invalid
  population
  active := false
  birthStep := .zero
  incarnation := 0
  inbox := []

/-- Everything as in the pattern, one incarnation later. -/
def resetFrom (a pattern : Agent σ μ) : Agent σ μ where
  motion := pattern.motion
  rng := pattern.rng
  state := pattern.state
  id := .invalid
  population := pattern.population
  active := false
  birthStep := .zero
  incarnation := a.incarnation + 1
  inbox := []

def withBody (a : Agent σ μ) (b : Body σ) : Agent σ μ := { a with toBody := b }

def age (a : Agent σ μ) (now : Step) : UInt64 := now.since a.birthStep

def activate (a : Agent σ μ) (id : AgentId) (now : Step) (seed : UInt64) : Agent σ μ :=
  { a with id, birthStep := now, rng := .ofAgent seed id, active := true }

def deactivate (a : Agent σ μ) : Agent σ μ :=
  { a with active := false, motion := .rest, inbox := [] }

def deliver (a : Agent σ μ) (m : Message μ) : Agent σ μ := { a with inbox := a.inbox ++ [m] }

def clearInbox (a : Agent σ μ) : Agent σ μ := { a with inbox := [] }

/-- All fields by name, the inbox by its length, the state as `describe` writes it. -/
def text (describe : σ → String) (a : Agent σ μ) : String :=
  "Agent \x7b id: " ++ a.id.text ++ ", population: " ++ Text.quoted a.population ++
    s!", active: {a.active}, birth_step: Step({a.birthStep.index})" ++
    s!", incarnation: {a.incarnation}, inbox: {a.inbox.length}" ++
    ", motion: Motion \x7b rotation: " ++ Text.shortest a.motion.rotation ++ ", translation: " ++
    Text.shortest a.motion.translation ++ " \x7d, state: " ++ describe a.state ++ " \x7d"

end Agent
end Vivarium
