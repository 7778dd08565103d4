import Vivarium.Behavior.Commands
import Vivarium.Behavior.Turn
import Vivarium.Config

/-!
How agents behave. Acting, an agent reads the world as it was before the step, works on a draft of
its own body and requests, and uses what it shares with the others; failing, it keeps what it has done
to its body.
-/
namespace Vivarium

inductive BehaviorError where
  | failed (agent : AgentId) (reason : String)
  | config (reason : String)
  /-- An agent was to draw from a range that holds nothing to draw. -/
  | emptyRange (agent : AgentId)

namespace BehaviorError

def message : BehaviorError → String
  | failed agent reason => s!"agent {agent.text} failed: {reason}"
  | config reason => s!"behavior configuration error: {reason}"
  | emptyRange agent => s!"agent {agent.text} failed: the range of a draw is empty"

end BehaviorError

/-- The world that every agent of a step sees, as it was before the step. Only its picture of
positions may change meanwhile; agents have it through their accesses. -/
structure Context where
  step : Step
  space : Space Float
  config : Config

namespace Context

def projection? (c : Context) (id : AgentId) : Option (Projection Float) := c.space.projection? id

end Context

/-- What an acting agent writes: its body, and its requests so far. -/
structure Draft (σ μ η : Type) where
  body : Body σ
  commands : Commands σ μ η

abbrev Act (σ μ η : Type) := ExceptT BehaviorError (StateT (Draft σ μ η) Turn)

namespace Act
variable {σ μ η : Type}

def body : Act σ μ η (Body σ) := do return (← get).body

def state : Act σ μ η σ := do return (← get).body.state

def setState (state : σ) : Act σ μ η Unit :=
  modify fun d => { d with body := { d.body with state } }

def setMotion (motion : Motion Float) : Act σ μ η Unit :=
  modify fun d => { d with body := { d.body with motion } }

/-- Draws from the agent's own stream. -/
def draw {α : Type} (f : Stream → α × Stream) : Act σ μ η α := do
  let d ← get
  let (a, rng) := f d.body.rng
  set { d with body := { d.body with rng } }
  return a

/-- Draws from the agent's own stream if there is anything to draw, and fails if there is not. -/
def drawOrFail {α : Type} (me : AgentId) (f : Stream → Option (α × Stream)) : Act σ μ η α := do
  let d ← get
  match f d.body.rng with
  | some (a, rng) =>
    set { d with body := { d.body with rng } }
    return a
  | none => throw (.emptyRange me)

def request (f : Commands σ μ η → Commands σ μ η) : Act σ μ η Unit :=
  modify fun d => { d with commands := f d.commands }

def spawn (a : Addition σ μ η) : Act σ μ η Unit := request (·.spawn a)

def remove (id : AgentId) : Act σ μ η Unit := request (·.remove id)

def send (m : Message μ) : Act σ μ η Unit := request (·.send m)

def report (e : AgentEvent) : Act σ μ η Unit := request (·.report e)

/-! Sharing. -/

def access (a : Access) : Act σ μ η a.Answer := ExceptT.lift (StateT.lift (.access a .done))

def put (key : String) (v : Value) : Act σ μ η Unit := access (.put key v)

def claim (key : String) (v : Value) : Act σ μ η Bool := access (.claim key v)

def look (key : String) : Act σ μ η (Option Value) := access (.look key)

def count : Act σ μ η Nat := access .count

def within (center : Point Float) (radius : Float) : Act σ μ η (List AgentId) :=
  access (.within center radius)

def nearest? (center : Point Float) (limit : Nat) : Act σ μ η (Option (List AgentId)) :=
  access (.nearest center limit)

def outdated : Act σ μ η Bool := access .outdated

def rebuilds : Act σ μ η Nat := access .rebuilds

/-- The other objects within `radius` of an object that it accepts; none if it is not stored. -/
def neighboursOf (c : Context) (id : AgentId) (radius : Float)
    (accept : Entry Float → Entry Float → Bool) : Act σ μ η (List (Entry Float)) :=
  match c.space.entry? id with
  | none => pure []
  | some me => do
    let ids ← within me.projection.position radius
    return c.space.othersOf me id accept ids

def neighbours (c : Context) (id : AgentId) (radius : Float) : Act σ μ η (List (Entry Float)) :=
  neighboursOf c id radius fun _ _ => true

/-- The neighbours with no wall on the straight line to them. -/
def visibleNeighbours (c : Context) (id : AgentId) (radius : Float) :
    Act σ μ η (List (Entry Float)) := neighboursOf c id radius c.space.sees

end Act

/-- How turns come out: with all their requests or with the failure of one, with the agents after it,
and with what the agents share. -/
abbrev Outcome (σ μ η : Type) :=
  Except BehaviorError (Commands σ μ η) × List (Agent σ μ) × Commons

/-- One behaviour drives every agent of a simulation. -/
structure Behavior (σ μ η : Type) where
  act : Context → Agent σ μ → Act σ μ η Unit
  /-- The body of a newborn after it has inherited. -/
  inherit : Agent σ μ → η → Body σ

namespace Behavior
variable {σ μ η : Type}

/-- Agents that never act. -/
def passive : Behavior σ μ η := ⟨fun _ _ => pure (), fun a _ => a.toBody⟩

/-- The turn of an agent whose requests go behind those in a buffer. -/
def turn (b : Behavior σ μ η) (c : Context) (a : Agent σ μ) (buffer : Commands σ μ η) :
    Turn (Except BehaviorError Unit × Draft σ μ η) :=
  (b.act c a).run.run ⟨a.toBody, buffer⟩

/-- One agent's turn: the buffer after it unless it failed, the agent after it, and what it leaves. -/
def perform (b : Behavior σ μ η) (c : Context) (a : Agent σ μ) (buffer : Commands σ μ η)
    (x : Commons) : Except BehaviorError (Commands σ μ η) × Agent σ μ × Commons :=
  let ((result, draft), x) := (b.turn c a buffer).run c.space x
  (result.map fun _ => draft.commands, a.withBody draft.body, x)

/-- The turns of some agents in order, with one buffer. The first that fails ends them, and the agents
after it do not act. -/
def performAll (b : Behavior σ μ η) (c : Context) :
    List (Agent σ μ) → Commands σ μ η → Commons → Outcome σ μ η
  | [], buffer, x => (.ok buffer, [], x)
  | a :: rest, buffer, x =>
    match b.perform c a buffer x with
    | (.error e, a, x) => (.error e, a :: rest, x)
    | (.ok buffer, a, x) =>
      let (result, rest, x) := b.performAll c rest buffer x
      (result, a :: rest, x)

/-- The turns of agents in chunks, each chunk with a buffer of its own; the requests are put together
in the order of the chunks. -/
def performChunks (b : Behavior σ μ η) (c : Context) :
    List (List (Agent σ μ)) → Commons → Outcome σ μ η
  | [], x => (.ok .empty, [], x)
  | chunk :: rest, x =>
    match b.performAll c chunk .empty x with
    | (.error e, chunk, x) => (.error e, chunk ++ rest.flatten, x)
    | (.ok commands, chunk, x) =>
      let (result, rest, x) := b.performChunks c rest x
      (result.map (commands ++ ·), chunk ++ rest, x)

end Behavior
end Vivarium
