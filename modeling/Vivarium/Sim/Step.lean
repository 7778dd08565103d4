import Vivarium.Sim.Basic

/-!
One step of a simulation. All agents act on the world as it was; then every requested birth is
checked, and only if all are sound are messages delivered, agents removed, motions made and newborns
activated, in this order. A step that fails leaves the queues, the inboxes and the counter of steps as
they were.
-/
namespace Vivarium.Sim
variable {σ μ η : Type}

/-- The world that the agents of the next step see. -/
def context (s : Sim σ μ η) : Context := ⟨s.step, s.space, s.config⟩

/-- What they share before the first of them acts. -/
def commons (s : Sim σ μ η) : Commons := ⟨s.board, s.space.index⟩

/-- Lets every active agent act, the chunks one after the other, as one worker does. -/
def execute (s : Sim σ μ η) : Outcome σ μ η :=
  s.behavior.performChunks s.context (chunks s.config.chunkSize.toNat s.agents.toList) s.commons

/-- The simulation after the turns of its agents. -/
def acting (s : Sim σ μ η) (agents : List (Agent σ μ)) (x : Commons) : Sim σ μ η :=
  { s.note (.started s.step) with
    agents := agents.toArray
    space := s.space.pictured x.index
    board := x.board
    phase := .planning }

/-- Every birth that waits or was asked for in this step is possible. -/
def validateQueued (s : Sim σ μ η) (c : Commands σ μ η) : Except SimError Unit :=
  let additions := s.queues.additions ++ c.additions
  match s.validateAll additions with
  | .error e => .error e
  | .ok () => s.ensureIds additions.length

/-- Hands a message to one recipient, if it is active. -/
def deliverTo (m : Message μ) (s : Nat × Sim σ μ η) (recipient : AgentId) : Nat × Sim σ μ η :=
  match s.2.slots[recipient]? with
  | some slot => (s.1 + 1, { s.2 with agents := s.2.agents.modify slot (·.deliver m) })
  | none => s

/-- Hands out the queued messages; answers how many copies. -/
def deliver (s : Sim σ μ η) : Nat × Sim σ μ η :=
  let messages := s.queues.deliveries
  let s := { s with queues := { s.queues with deliveries := [] } }
  messages.foldl (fun s m => m.recipients.foldl (deliverTo m) s) (0, s)

/-- The place of every agent. -/
def slotsOf (agents : List (Agent σ μ)) : Std.HashMap AgentId Nat :=
  agents.zipIdx.foldl (fun slots (a, i) => slots.insert a.id i) ∅

/-- Gives one agent's storage back to the pool. -/
def retire (now : Step) (s : Sim σ μ η) (a : Agent σ μ) : Sim σ μ η :=
  let s := s.note (.removed now a.id a.population)
  match s.pool.release a.deactivate with
  | .ok pool => { s with pool }
  | .error _ => s

/-- Removes every active agent whose removal is queued; answers how many. -/
def removeQueued (s : Sim σ μ η) (now : Step) : Nat × Sim σ μ η :=
  let doomed : Std.HashSet AgentId := .ofList (s.queues.removals.filter s.slots.contains)
  let s := { s with queues := { s.queues with removals := [] } }
  if doomed.isEmpty then (0, s)
  else
    let agents := s.agents.toList
    let kept := agents.filter fun a => !doomed.contains a.id
    let s := (agents.filter fun a => doomed.contains a.id).foldl (retire now) s
    let (removed, space) := s.space.removeIf fun e => doomed.contains e.id
    (removed, { s with agents := kept.toArray, slots := slotsOf kept, space })

/-- Makes every agent's motion; answers how many motions were not still. -/
def moveAgents (s : Sim σ μ η) : Nat × Sim σ μ η :=
  let (moved, space) :=
    s.space.moveAll s.config.chunkSize.toNat fun id => (s.agent? id).map (·.motion)
  (moved, { s with space })

def activateAll (now : Step) : List (Addition σ μ η) → Sim σ μ η → Except SimError Unit × Sim σ μ η
  | [], s => (.ok (), s)
  | a :: rest, s =>
    match s.activate a now with
    | (.error e, s) => (.error e, s)
    | (.ok _, s) => activateAll now rest s

/-- Activates the queued newborns; answers how many. -/
def activateQueued (s : Sim σ μ η) (now : Step) : Except SimError Nat × Sim σ μ η :=
  let additions := s.queues.additions
  let s := { s with queues := { s.queues with additions := [] } }
  let (result, s) := activateAll now additions s
  (result.map fun _ => additions.length, s)

/-- Carries out what is queued. `executed` agents have acted. -/
def modify (s : Sim σ μ η) (now : Step) (executed : Nat) :
    Except SimError StepSummary × Sim σ μ η :=
  let (delivered, s) := s.deliver
  let (removed, s) := s.removeQueued now
  let (moved, s) := s.moveAgents
  let (born, s) := s.activateQueued now
  (born.map fun born => ⟨now, executed, delivered, removed, moved, born, s.agents.size⟩, s)

/-- The end of a step, whether it failed or not. -/
def settle (s : Sim σ μ η) : Sim σ μ η := { s with board := .empty, phase := .idle }

/-- Makes the requests of a step those of the world: inboxes are emptied, reports enter the journal,
and the other requests are queued. -/
def accept (s : Sim σ μ η) (now : Step) (c : Commands σ μ η) : Sim σ μ η :=
  { s with
    agents := s.agents.map (·.clearInbox)
    journal := c.events.foldl (fun j e => j.push (.reported now e)) s.journal
    queues := (s.queues.absorb c).1
    phase := .modification }

/-- How a step goes on after its modification. -/
def concluded (now : Step) : Except SimError StepSummary × Sim σ μ η →
    Except SimError StepSummary × Sim σ μ η
  | (.error e, s) => (.error e, s.settle)
  | (.ok summary, s) => (.ok summary, { s.settle with step := now.next }.note (.ended summary))

/-- How a step goes on after the turns of its agents. `modify` carries out what is queued. -/
def finish (s : Sim σ μ η)
    (modify : Sim σ μ η → Step → Nat → Except SimError StepSummary × Sim σ μ η)
    (turns : Outcome σ μ η) : Except SimError StepSummary × Sim σ μ η :=
  let (result, agents, x) := turns
  let acted := s.acting agents x
  match result with
  | .error cause => (.error (.behavior cause), acted.settle)
  | .ok commands =>
    match acted.validateQueued commands with
    | .error e => (.error e, acted.settle)
    | .ok () => concluded s.step (modify (acted.accept s.step commands) s.step s.agents.size)

def nextStep (s : Sim σ μ η) : Except SimError StepSummary × Sim σ μ η := s.finish modify s.execute

/-- A number of steps, or fewer if one fails. -/
def runSteps (s : Sim σ μ η) : Nat → Except SimError Unit × Sim σ μ η
  | 0 => (.ok (), s)
  | n + 1 =>
    match s.nextStep with
    | (.error e, s) => (.error e, s)
    | (.ok _, s) => s.runSteps n

/-- The steps that are left up to the configured end. -/
def run (s : Sim σ μ η) : Except SimError Unit × Sim σ μ η :=
  s.runSteps (s.config.endStep.since s.step).toNat

end Vivarium.Sim
