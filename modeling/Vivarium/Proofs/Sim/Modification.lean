import Vivarium.Proofs.Sim.Deliveries
import Vivarium.Proofs.Sim.Newborns
import Vivarium.Proofs.Sim.Removals

/-! The phases of modification, one after the other. Each keeps the stores consistent and leaves the
requests of the later phases alone, so what was validated before them is still admitted when the
newborns are activated. -/
namespace Vivarium.Sim
variable {σ μ η : Type} {s s' s'' : Sim σ μ η} {now : Step}

/-- From one state of a step to a later one. -/
structure Modified (now : Step) (s s' : Sim σ μ η) : Prop where
  keeps : s.Keeps s'
  summaries : s'.summaries = s.summaries
  births : ∀ i ∈ s'.identities, i ∈ s.identities ∨ i.birthStep = now
  consistent : s'.Consistent

namespace Modified

theorem refl (consistent : s.Consistent) (now : Step) : s.Modified now s :=
  ⟨.refl s, rfl, fun _ old => .inl old, consistent⟩

theorem trans (first : s.Modified now s') (second : s'.Modified now s'') : s.Modified now s'' where
  keeps := first.keeps.trans second.keeps
  summaries := second.summaries.trans first.summaries
  births i among := (second.births i among).elim (first.births i) .inr
  consistent := second.consistent

theorem requeue (consistent : s.Consistent) (now : Step) (queues : Queues σ μ η) :
    s.Modified now { s with queues } where
  keeps := ⟨rfl, rfl, rfl, fun _ => rfl⟩
  summaries := rfl
  births _ old := .inl old
  consistent := consistent.of_same rfl rfl rfl rfl consistent.space consistent.pool fun _ => rfl

end Modified

/-! Deliveries. -/

/-- Nothing differs but bodies and inboxes. -/
def Redrawn (s s' : Sim σ μ η) : Prop :=
  ∃ agents : Array (Agent σ μ), s' = { s with agents } ∧
    agents.toList.map Agent.identity = s.identities

theorem Redrawn.modified (redrawn : s.Redrawn s') (consistent : s.Consistent) (now : Step) :
    s.Modified now s' := by
  obtain ⟨agents, rfl, same⟩ := redrawn
  refine ⟨⟨rfl, rfl, rfl, fun _ => rfl⟩, rfl, ?_, ?_⟩
  · intro i among
    exact .inl (same ▸ among)
  · exact consistent.of_same same rfl rfl rfl consistent.space consistent.pool fun _ => rfl

theorem Consistent.deliver (consistent : s.Consistent) (now : Step) :
    s.Modified now s.deliver.2 := by
  have cleared := Modified.requeue consistent now { s.queues with deliveries := [] }
  have redrawn : { s with queues := { s.queues with deliveries := [] } }.Redrawn s.deliver.2 := by
    rw [deliver_eq consistent.slots]
    exact ⟨_, rfl, mailed_identities s.queues.deliveries⟩
  exact cleared.trans (redrawn.modified cleared.consistent now)

theorem deliver_ids (indexed : Indexes s.slots s.ids) : s.deliver.2.ids = s.ids := by
  rw [ids_eq_map, ids_eq_map, deliver_eq indexed]
  exact congrArg _ (mailed_identities s.queues.deliveries)

/-! Removals. -/

theorem Consistent.removed (consistent : s.Consistent) (now : Step) :
    s.Modified now (s.removeQueued now).2 := by
  obtain ⟨agents, slots, pool, journal, space, removed, thinned⟩ := consistent.removeQueued now
  refine ⟨⟨?_, ?_, thinned.terrain, thinned.patterns⟩, thinned.summaries, ?_, thinned.consistent⟩
  · rw [removed]
  · rw [removed]
  · intro i stays
    rw [identities, thinned.agents] at stays
    exact .inl (List.map_subset _ (List.filter_subset_self _) stays)

/-- Deliveries do not change how many agents go. -/
theorem Consistent.removed_count (consistent : s.Consistent) (now : Step) :
    (s.deliver.2.removeQueued now).1 = s.ids.countP s.queues.removals.contains := by
  obtain ⟨agents, slots, pool, journal, space, removed, -⟩ :=
    (consistent.deliver now).consistent.removeQueued now
  rw [removed, deliver_ids consistent.slots, deliver_eq consistent.slots]

/-- Who is left has its mail. -/
theorem Consistent.removed_agents (consistent : s.Consistent) (now : Step) :
    (s.deliver.2.removeQueued now).2.agents.toList = (s.agents.toList.filter fun a =>
      !s.queues.removals.contains a.id).map (·.receive s.queues.deliveries) := by
  obtain ⟨agents, slots, pool, journal, space, -, thinned⟩ :=
    (consistent.deliver now).consistent.removeQueued now
  rw [thinned.agents, deliver_eq consistent.slots]
  show (s.agents.map (·.receive s.queues.deliveries)).toList.filter _ = _
  rw [Array.toList_map, List.filter_map]
  rfl

/-- Who is left is found in the compacted table, with the motion it had before. -/
theorem Consistent.removed_motion (consistent : s.Consistent) (now : Step) {a : Agent σ μ}
    (stored : a ∈ s.agents) (stays : s.queues.removals.contains a.id = false) :
    ((s.deliver.2.removeQueued now).2.agent? a.id).map (·.motion) = some a.motion := by
  have left := ((consistent.deliver now).consistent.removed now).consistent
  have still : a.receive s.queues.deliveries ∈ (s.deliver.2.removeQueued now).2.agents := by
    rw [← Array.mem_toList_iff, consistent.removed_agents now, List.mem_map]
    exact ⟨a, List.mem_filter.mpr ⟨Array.mem_toList_iff.mpr stored, by rw [stays]; rfl⟩, rfl⟩
  have found : (s.deliver.2.removeQueued now).2.agent? a.id =
      some (a.receive s.queues.deliveries) := left.agent?_eq_some.mpr ⟨still, rfl⟩
  rw [found]
  rfl

/-- Who is left has not moved yet. -/
theorem Consistent.removed_projection (consistent : s.Consistent) (now : Step) {id : AgentId}
    (stays : s.queues.removals.contains id = false) :
    (s.deliver.2.removeQueued now).2.space.projection? id = s.space.projection? id := by
  have delivered := consistent.deliver now
  obtain ⟨agents, slots, pool, journal, space, -, thinned⟩ :=
    delivered.consistent.removeQueued now
  have mail := deliver_eq consistent.slots
  have unmoved : s.deliver.2.space = s.space := by rw [mail]; rfl
  rw [thinned.projection? delivered.consistent.space (by rw [mail]; exact stays), unmoved]

/-! Movement. -/

theorem Consistent.moveAgents (consistent : s.Consistent) (now : Step) :
    s.Modified now s.moveAgents.2 where
  keeps := ⟨rfl, rfl, rfl, fun _ => rfl⟩
  summaries := rfl
  births _ old := .inl old
  consistent := by
    refine consistent.of_same rfl rfl rfl ?_ (consistent.space.moveAll _ _) consistent.pool
      fun _ => rfl
    exact Space.moveAll_members _ _

/-! Births. -/

theorem Consistent.activate_modified (consistent : s.Consistent) {a : Addition σ μ η}
    {id : AgentId} (activated : s.activate a now = (.ok id, s')) : s.Modified now s' where
  keeps := activate_keeps activated
  summaries := by
    obtain ⟨-, -, -, -, -, -, -, rfl⟩ := activate_eq_ok activated
    simp [summaries, Notice.ended?]
  births i among := by
    obtain ⟨n, identities⟩ := consistent.activate_identities activated
    rw [identities, List.mem_append, List.mem_singleton] at among
    apply among.imp_right
    rintro rfl
    rfl
  consistent := consistent.activate activated

theorem Consistent.activateAll_modified (consistent : s.Consistent)
    {additions : List (Addition σ μ η)}
    (activated : activateAll now additions s = (.ok (), s')) : s.Modified now s' := by
  induction additions generalizing s with
  | nil =>
    cases activated
    exact .refl consistent now
  | cons a rest ih =>
    obtain ⟨id, middle, first, others⟩ := activateAll_cons activated
    have modified := consistent.activate_modified first
    exact modified.trans (ih modified.consistent others)

/-- The state in which the newborns are activated. -/
def cleared (s : Sim σ μ η) (now : Step) : Sim σ μ η :=
  (s.deliver.2.removeQueued now).2.moveAgents.2

/-- What has been done when the newborns are activated: agents have their mail, some are gone, and the
others have made their own motions. -/
structure Cleared (now : Step) (s s' : Sim σ μ η) : Prop where
  modified : s.Modified now s'
  queues : s'.queues = { s.queues with removals := [], deliveries := [] }
  nextId : s'.nextId = s.nextId
  agents : s'.agents.toList = (s.agents.toList.filter fun a =>
    !s.queues.removals.contains a.id).map (·.receive s.queues.deliveries)
  carried : ∀ a ∈ s.agents, s.queues.removals.contains a.id = false →
    ∀ p, s.space.projection? a.id = some p →
      s'.space.projection? a.id = some (p.carried s.space.terrain a.motion)

theorem Consistent.cleared (consistent : s.Consistent) (now : Step) :
    Cleared now s (s.cleared now) := by
  have delivered := consistent.deliver now
  have removal := delivered.consistent.removed now
  have moved := removal.consistent.moveAgents now
  have mail := deliver_eq consistent.slots
  obtain ⟨agents, slots, pool, journal, space, removed, -⟩ :=
    delivered.consistent.removeQueued now
  constructor
  case modified => exact (delivered.trans removal).trans moved
  case queues =>
    show (s.deliver.2.removeQueued now).2.queues = _
    rw [removed, mail]
  case nextId =>
    show (s.deliver.2.removeQueued now).2.nextId = _
    rw [removed, mail]
    rfl
  case agents => exact consistent.removed_agents now
  case carried =>
    intro a stored stays p before
    have motion := consistent.removed_motion now stored stays
    rw [← consistent.removed_projection now stays] at before
    rw [← (delivered.trans removal).keeps.terrain]
    exact removal.consistent.space.projection?_moveAll _ motion before

/-- Who is not removed is active when the newborns are activated. -/
theorem Cleared.active {a : Agent σ μ} (cleared : Cleared now s s') (stored : a ∈ s.agents)
    (stays : s.queues.removals.contains a.id = false) : a.id ∈ s'.ids := by
  rw [ids, cleared.agents, List.map_map]
  have kept : a ∈ s.agents.toList.filter fun a => !s.queues.removals.contains a.id :=
    List.mem_filter.mpr ⟨Array.mem_toList_iff.mpr stored, by rw [stays]; rfl⟩
  exact List.mem_map.mpr ⟨a, kept, rfl⟩

theorem modify_eq (s : Sim σ μ η) (now : Step) (executed : Nat) :
    s.modify now executed =
      let (born, s') := (s.cleared now).activateQueued now
      (born.map fun born => ⟨now, executed, s.deliver.1, (s.deliver.2.removeQueued now).1,
        (s.deliver.2.removeQueued now).2.moveAgents.1, born, s'.agents.size⟩, s') := rfl

/-- A modification that was carried out to its end. -/
structure CarriedOut (now : Step) (executed : Nat) (newborns : List (Agent σ μ))
    (summary : StepSummary) (s s' : Sim σ μ η) : Prop where
  modified : s.Modified now s'
  summary : ∃ moved, summary = ⟨now, executed,
    (s.queues.deliveries.flatMap (·.recipients)).countP (· ∈ s.ids),
    s.ids.countP s.queues.removals.contains, moved, s.queues.additions.length, s'.agents.size⟩
  agents : s'.agents.toList = (s.agents.toList.filter fun a =>
    !s.queues.removals.contains a.id).map (·.receive s.queues.deliveries) ++ newborns
  ids : newborns.map (·.id.index) = List.range' s.nextId.index s.queues.additions.length
  born : List.Forall₂ (fun a newborn => s.Born now a newborn ∧
    s'.space.projection? newborn.id = some a.projection) s.queues.additions newborns
  carried : ∀ a ∈ s.agents, s.queues.removals.contains a.id = false →
    ∀ p, s.space.projection? a.id = some p →
      s'.space.projection? a.id = some (p.carried s.space.terrain a.motion)
  queues : s'.queues = .empty
  nextId : s'.nextId.index = s.nextId.index + s.queues.additions.length

/-- A modification whose births are admitted does not fail. -/
theorem Consistent.modify_succeeds (consistent : s.Consistent)
    (admitted : ∀ a ∈ s.queues.additions, s.Admits a)
    (left : s.queues.additions.length ≤ s.nextId.remaining) (now : Step) (executed : Nat) :
    ∃ summary s', s.modify now executed = (.ok summary, s') ∧
      ∃ newborns, CarriedOut now executed newborns summary s s' := by
  have cleared := consistent.cleared now
  have waiting : (s.cleared now).queues.additions = s.queues.additions := by rw [cleared.queues]
  have emptied := Modified.requeue cleared.modified.consistent now
    { (s.cleared now).queues with additions := [] }
  have ready := cleared.modified.trans emptied
  rw [← cleared.nextId] at left
  obtain ⟨s', activated⟩ := ready.consistent.activateAll_succeeds
    (fun a among => ready.keeps.admits_iff.mpr (admitted a among)) left now
  have changes := ready.consistent.activateAll_modified activated
  obtain ⟨newborns, peopled⟩ := ready.consistent.activateAll_peopled activated
  have carriedOut : s.modify now executed = (.ok ⟨now, executed, s.deliver.1,
      (s.deliver.2.removeQueued now).1, (s.deliver.2.removeQueued now).2.moveAgents.1,
      s.queues.additions.length, s'.agents.size⟩, s') := by
    rw [modify_eq, activateQueued, waiting, activated]
    rfl
  refine ⟨_, s', carriedOut, newborns, ?_⟩
  constructor
  case modified => exact ready.trans changes
  case summary =>
    refine ⟨(s.deliver.2.removeQueued now).2.moveAgents.1, ?_⟩
    rw [consistent.removed_count now, deliver_eq consistent.slots]
  case agents =>
    rw [peopled.agents]
    exact congrArg (· ++ newborns) cleared.agents
  case ids =>
    rw [peopled.ids, ← cleared.nextId]
  case born => exact peopled.born.imp fun _ _ born => ⟨ready.keeps.born born.1, born.2⟩
  case carried =>
    intro a stored stays p before
    rw [peopled.others a.id (cleared.active stored stays)]
    exact cleared.carried a stored stays p before
  case queues =>
    rw [peopled.queues, cleared.queues]
    rfl
  case nextId =>
    rw [peopled.nextId, ← cleared.nextId]

end Vivarium.Sim
