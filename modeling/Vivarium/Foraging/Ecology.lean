import Vivarium.Behavior.Basic
import Vivarium.Random.Draw

/-!
Foragers and hunters. Foragers graze, divide when they are well fed, and warn each other of hunters in
sight; a warned forager flees. Hunters pursue the nearest forager in sight and eat the one they reach,
once only among all hunters. Both starve when their energy is used up.
-/
namespace Vivarium.Foraging

inductive Kind where
  | forager | hunter
  deriving DecidableEq

structure Critter where
  kind : Kind
  energy : Float

def forager : Population := "forager"
def hunter : Population := "hunter"

/-- A hunter was seen here. -/
structure Alarm where
  place : Point Float

structure Ecology where
  graze : Float
  metabolism : Float
  meal : Float
  splitAt : Float
  sight : Float
  reach : Float
  stride : Float

abbrev CritterAgent := Agent Critter Alarm
abbrev CritterAct := Act Critter Alarm Float

/-- The element of the lowest rank, the first of several. -/
def lowest? {α : Type} (value : α → Float) : List α → Option α
  | [] => none
  | a :: rest => some (rest.foldl lower a)
where
  lower (best a : α) : α :=
    if Binary64.rank (value a) < Binary64.rank (value best) then a else best

def changeEnergy (f : Float → Float) : CritterAct Unit := do
  let critter ← Act.state
  Act.setState { critter with energy := f critter.energy }

/-- Drifts by a random turn of at most `turn` to either side. -/
def drift (turn stride : Float) : CritterAct Unit := do
  let rotation ← Act.draw fun s => (s.drawFloat? (-turn) turn).getD (0.0, s)
  Act.setMotion (.of rotation stride)

namespace Ecology

/-- What foragers do: flee from the nearest hunter they were warned of, or drift; and warn the
foragers in sight if a hunter is. -/
def forage (p : Ecology) (c : Context) (me : CritterAgent) (here : Projection Float) :
    CritterAct Unit := do
  changeEnergy (· + p.graze)
  match lowest? here.position.squaredDistance (me.inbox.map (·.content.place)) with
  | some threat =>
    Act.setMotion (.toward here.orientation (threat.headingTo here.position) (p.stride * 1.5))
  | none => drift 0.6 p.stride
  let seen ← Act.visibleNeighbours c me.id p.sight
  match seen.find? fun e => e.population == hunter with
  | some enemy =>
    let flock := (seen.filter fun e => e.population == forager).map (·.id)
    if !flock.isEmpty then Act.send ⟨me.id, flock, ⟨enemy.projection.position⟩⟩
  | none => pure ()

def caughtKey (prey : AgentId) : String := "caught:" ++ prey.text

/-- Eats a forager within reach, unless another hunter was faster. -/
def catchPrey (p : Ecology) (me : CritterAgent) (prey : AgentId) : CritterAct Unit := do
  let won ← Act.claim (caughtKey prey) (.agent me.id)
  if won then
    Act.remove prey
    changeEnergy (· + p.meal)
    Act.report ⟨me.id, "hunt", "caught " ++ prey.text⟩

/-- What hunters do: eat the nearest forager in sight if it is within reach, else pursue it, or drift
where there is none. -/
def hunt (p : Ecology) (c : Context) (me : CritterAgent) (here : Projection Float) :
    CritterAct Unit := do
  let seen ← Act.visibleNeighbours c me.id p.sight
  let prey := seen.filter fun e => e.population == forager
  match lowest? (fun e => here.position.squaredDistance e.projection.position) prey with
  | some prey =>
    let place := prey.projection.position
    if place.distance here.position ≤ p.reach then
      p.catchPrey me prey.id
      Act.setMotion .rest
    else
      Act.setMotion (.toward here.orientation (here.position.headingTo place) (p.stride * 1.2))
  | none => drift 0.4 p.stride

/-- A well-fed critter gives half of its energy to a child. -/
def divide (p : Ecology) (me : CritterAgent) (here : Projection Float) : CritterAct Unit := do
  let critter ← Act.state
  if p.splitAt ≤ critter.energy then
    let share := critter.energy / 2.0
    Act.setState { critter with energy := critter.energy - share }
    Act.spawn ⟨me.population, here, some share, none⟩

def act (p : Ecology) (c : Context) (me : CritterAgent) : CritterAct Unit := do
  match c.projection? me.id with
  | none => pure ()
  | some here =>
    changeEnergy (· - p.metabolism)
    let critter ← Act.state
    if critter.energy ≤ 0.0 then
      Act.remove me.id
      Act.report ⟨me.id, "ecology", me.population ++ " starved"⟩
    else
      match critter.kind with
      | .forager => p.forage c me here
      | .hunter => p.hunt c me here
      p.divide me here

def inherit (newborn : CritterAgent) (energy : Float) : Body Critter :=
  { newborn.toBody with state := { newborn.state with energy } }

def behavior (p : Ecology) : Behavior Critter Alarm Float := ⟨p.act, inherit⟩

end Ecology

/-- A place drawn at random, facing east. -/
def randomPlace (width height : Nat) (s : Stream) : Projection Float × Stream :=
  let (x, s) := (s.drawFloat? 0.0 (Scalar.ofNat width)).getD (0.0, s)
  let (y, s) := (s.drawFloat? 0.0 (Scalar.ofNat height)).getD (0.0, s)
  (.placed x y, s)

/-- One newcomer for each name, at places drawn one after the other. -/
def scatter (width height : Nat) : List Population → Stream → List (Addition Critter Alarm Float)
  | [], _ => []
  | p :: rest, s =>
    let (place, s) := randomPlace width height s
    .plain p place :: scatter width height rest s

end Vivarium.Foraging
