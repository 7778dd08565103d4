import Vivarium.Behavior.Basic
import Vivarium.Random.Draw

/-!
Agents that run scripts. The state holds a number, a program and a log; in every turn the agent runs
one action list of its program, and the next one in its next turn. Messages and inheritances are
numbers.
-/
namespace Vivarium.Script

/-- Who gets a message. -/
inductive Audience where
  | listed (ids : List AgentId)
  /-- Every other object. -/
  | others
  | near (radius : Float)
  | visible (radius : Float)
  | self

/-- What a child inherits. -/
inductive Bequest where
  | number (n : Int)
  /-- The parent's number at that moment. -/
  | value

/-- How a newborn is changed before it takes its place; what is not given stays. -/
structure Upbringing (α : Type) where
  add : Option Int
  program : Option (List (List α))
  motion : Option (Motion Float)

/-- A child to ask for: of the parent's population and at the parent's place, unless said
otherwise. -/
structure Offspring (α : Type) where
  population : Option Population
  place : Option (Projection Float)
  bequest : Option Bequest
  upbringing : Option (Upbringing α)

inductive Action where
  | move (rotation translation : Float)
  /-- The motion is taken as it is, without clamping. -/
  | moveRaw (motion : Motion Float)
  | stop
  | toward (heading translation : Float)
  | wander (turn distance : Float)
  | draw
  | spawn (child : Offspring Action)
  | remove (id : Option AgentId)
  | send (audience : Audience) (content : Option Int)
  | report (source message : String)
  | publish (key : String) (value : Int)
  | claim (key : String)
  | read (key : String)
  | add (n : Int)
  | sumInbox
  | sense (radius : Float)
  | world
  | whenStep (step : Nat) (actions : List Action)
  | ifValue (least : Int) (actions : List Action)
  | fail (reason : String)
  | misconfigure (reason : String)

abbrev Program := List (List Action)

/-- What an agent saw when it sensed its surroundings. -/
structure Impression where
  step : Step
  objects : Nat
  age : UInt64
  position : Option (Point Float)
  near : List AgentId
  visible : List AgentId
  inbox : List (AgentId × Int)

inductive LogEntry where
  | drew (word : UInt64)
  | claimed (won : Bool)
  | read (number : Option Int) (agent : Option AgentId) (present : Bool) (size : Nat)
  | sensed (impression : Impression)
  | world (width height : UInt32) (seed : UInt64)

structure State where
  value : Int
  tick : Nat
  program : Program
  log : List LogEntry

namespace State

def initial (value : Int) (program : Program) : State := ⟨value, 0, program, []⟩

end State

abbrev Scripted := Agent State Int
abbrev ScriptAct := Act State Int Int

def Upbringing.apply (u : Upbringing Action) (newborn : Scripted) : Body State :=
  let state := newborn.state
  let state := { state with
    value := state.value + u.add.getD 0
    program := u.program.getD state.program }
  { newborn.toBody with state, motion := u.motion.getD newborn.motion }

def idsOf (entries : List (Entry Float)) : List AgentId := AgentId.sort (entries.map (·.id))

def Audience.ids (c : Context) (me : Scripted) : Audience → ScriptAct (List AgentId)
  | listed ids => pure ids
  | others => pure (AgentId.sort ((c.space.entries.toList.map (·.id)).filter (· ≠ me.id)))
  | near radius => do return idsOf (← Act.neighbours c me.id radius)
  | visible radius => do return idsOf (← Act.visibleNeighbours c me.id radius)
  | self => pure [me.id]

def modifyState (f : State → State) : ScriptAct Unit := do Act.setState (f (← Act.state))

def log (e : LogEntry) : ScriptAct Unit := modifyState fun s => { s with log := s.log ++ [e] }

def here (c : Context) (me : Scripted) : Projection Float :=
  (c.projection? me.id).getD (.placed 0.0 0.0)

def Offspring.addition (c : Context) (me : Scripted) (value : Int) (o : Offspring Action) :
    Addition State Int Int where
  population := o.population.getD me.population
  projection := o.place.getD (here c me)
  heritage := o.bequest.map fun
    | .number n => n
    | .value => value
  init := o.upbringing.map fun u => u.apply

def impression (c : Context) (me : Scripted) (radius : Float) : ScriptAct Impression := do
  let near ← Act.neighbours c me.id radius
  let visible ← Act.visibleNeighbours c me.id radius
  return {
    step := c.step
    objects := c.space.count
    age := me.age c.step
    position := (c.projection? me.id).map (·.position)
    near := idsOf near
    visible := idsOf visible
    inbox := me.inbox.map fun m => (m.sender, m.content) }

mutual

def Action.perform (c : Context) (me : Scripted) : Action → ScriptAct Unit
  | .move rotation translation => Act.setMotion (.of rotation translation)
  | .moveRaw motion => Act.setMotion motion
  | .stop => Act.setMotion .rest
  | .toward heading translation =>
    Act.setMotion (.toward (here c me).orientation heading translation)
  | .wander turn distance => do
    let rotation ← Act.drawOrFail me.id (Stream.drawFloat? (-turn) turn)
    let translation ← Act.drawOrFail me.id (Stream.drawFloat? 0.0 distance)
    Act.setMotion (.of rotation translation)
  | .draw => do
    let word ← Act.draw Stream.next
    log (.drew word)
  | .spawn child => do
    let state ← Act.state
    Act.spawn (child.addition c me state.value)
  | .remove id => Act.remove (id.getD me.id)
  | .send audience content => do
    let state ← Act.state
    let recipients ← audience.ids c me
    Act.send ⟨me.id, recipients, content.getD state.value⟩
  | .report source message => Act.report ⟨me.id, source, message⟩
  | .publish key value => Act.put key (.int value)
  | .claim key => do
    let won ← Act.claim key (.agent me.id)
    log (.claimed won)
  | .read key => do
    let seen ← Act.look key
    let size ← Act.count
    log (.read (seen.bind (·.int?)) (seen.bind (·.agent?)) seen.isSome size)
  | .add n => modifyState fun s => { s with value := s.value + n }
  | .sumInbox => modifyState fun s =>
    { s with value := me.inbox.foldl (fun sum m => sum + m.content) s.value }
  | .sense radius => do
    let impression ← impression c me radius
    log (.sensed impression)
  | .world => log (.world c.config.width c.config.height c.config.seed)
  | .whenStep step actions => if c.step.index = step then performActions c me actions else pure ()
  | .ifValue least actions => do
    let state ← Act.state
    if least ≤ state.value then performActions c me actions else pure ()
  | .fail reason => throw (.failed me.id reason)
  | .misconfigure reason => throw (.config reason)

def performActions (c : Context) (me : Scripted) : List Action → ScriptAct Unit
  | [] => pure ()
  | a :: rest => do
    a.perform c me
    performActions c me rest

end

/-- One turn: the action list whose place the number of earlier turns gives, round and round. -/
def turn (c : Context) (me : Scripted) : ScriptAct Unit := do
  let state ← Act.state
  Act.setState { state with tick := state.tick + 1 }
  performActions c me (state.program[state.tick % state.program.length]?.getD [])

def inherit (newborn : Scripted) (heritage : Int) : Body State :=
  { newborn.toBody with state := { newborn.state with value := heritage + 100 } }

def behavior : Behavior State Int Int := ⟨turn, inherit⟩

end Vivarium.Script
