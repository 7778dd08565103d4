import Vivarium.Proofs.Agent.Ledger
import Vivarium.Proofs.Sim.Engine

/-! What a step writes into the journal and takes from the pool, and a simulation seen as what
changes it: queues are rewritten, bodies are edited, an agent is born at once, a step is broken off,
or a step is completed. Whichever engine makes the steps, nothing else happens to a simulation. -/
namespace Vivarium.Sim
variable {σ μ η : Type} {s s' s'' : Sim σ μ η} {now : Step} {agents newborns : List (Agent σ μ)}
  {shared : Commons} {commands : Commands σ μ η} {summary : StepSummary}

/-! Reports. -/

theorem reported_toList (now : Step) (events : List AgentEvent) (journal : Journal) :
    (events.foldl (fun j e => j.push (.reported now e)) journal).toList =
      journal.toList ++ events.map (.reported now) := by
  induction events generalizing journal with
  | nil => simp
  | cons e rest ih => rw [List.foldl_cons, ih, Array.toList_push, List.append_assoc]; rfl

/-! Removals. -/

/-- The notice of an agent that goes. -/
def parting (now : Step) (a : Agent σ μ) : Notice := .removed now a.id a.population

/-- The return of an agent's storage. -/
def handBack (a : Agent σ μ) : Pool.Call σ μ := .release a.deactivate

theorem retire_eq (s : Sim σ μ η) (now : Step) (a : Agent σ μ) :
    retire now s a = { s with
      pool := s.pool.after (handBack a)
      journal := s.journal.push (parting now a) } := by
  simp only [retire, note, handBack, parting, Pool.after, Pool.attempt]
  cases s.pool.release a.deactivate <;> rfl

theorem retireAll_eq (s : Sim σ μ η) (now : Step) (gone : List (Agent σ μ)) :
    gone.foldl (retire now) s = { s with
      pool := s.pool.afterAll (gone.map handBack)
      journal := (s.journal.toList ++ gone.map (parting now)).toArray } := by
  induction gone generalizing s with
  | nil => simp [Pool.afterAll]
  | cons a rest ih =>
    rw [List.foldl_cons, ih, retire_eq]
    simp [Pool.afterAll]

/-- The active agents whose removal is queued. -/
def leaving (s : Sim σ μ η) : List (Agent σ μ) :=
  s.agents.toList.filter fun a => s.queues.removals.contains a.id

theorem Consistent.removeQueued_written (consistent : s.Consistent) (now : Step) :
    (s.removeQueued now).2.journal.toList = s.journal.toList ++ s.leaving.map (parting now) ∧
      (s.removeQueued now).2.pool = s.pool.afterAll (s.leaving.map handBack) := by
  have going : s.leaving = s.agents.toList.filter fun a => s.doomed.contains a.id :=
    List.filter_congr fun a stored =>
      (consistent.doomed_agent (Array.mem_toList_iff.mp stored)).symm
  rw [removeQueued_eq, going]
  split
  · rename_i blank
    rw [Std.HashSet.isEmpty_iff_forall_contains] at blank
    simp [blank, Pool.afterAll]
  · simp [dismiss, retireAll_eq]

/-! Births. -/

/-- The notice of a newborn. -/
def arrival (now : Step) (a : Agent σ μ) : Notice := .created now a.id a.population

/-- What a request makes of the storage that was lent for it. -/
def Raises (s : Sim σ μ η) (now : Step) (x : Addition σ μ η × Agent σ μ) (newborn : Agent σ μ) :
    Prop :=
  x.2.population = x.1.population ∧
    newborn = raise s.behavior x.1 (x.2.activate newborn.id now s.config.seed)

/-- The storage that is lent for some requests. -/
def lent (s : Sim σ μ η) (additions : List (Addition σ μ η)) : List (Agent σ μ) :=
  s.pool.loans (additions.map (·.population))

/-- From one state to another with newborns that live in borrowed storage. -/
structure Housed (now : Step) (additions : List (Addition σ μ η)) (newborns : List (Agent σ μ))
    (s s' : Sim σ μ η) : Prop where
  agents : s'.agents.toList = s.agents.toList ++ newborns
  journal : s'.journal.toList = s.journal.toList ++ newborns.map (arrival now)
  pool : s'.pool = s.pool.afterAll (additions.map (.borrow ·.population))
  storage : (s.lent additions).length = additions.length
  raised : List.Forall₂ (s.Raises now) (additions.zip (s.lent additions)) newborns

theorem Consistent.activate_housed (consistent : s.Consistent) {a : Addition σ μ η} {id : AgentId}
    (activated : s.activate a now = (.ok id, s')) :
    ∃ storage newborn, s.pool.borrow a.population = .ok (storage, s'.pool) ∧
      s.Raises now (a, storage) newborn ∧ newborn.id = id ∧ newborn.population = a.population ∧
      s'.agents.toList = s.agents.toList ++ [newborn] ∧
      s'.journal.toList = s.journal.toList ++ [arrival now newborn] := by
  obtain ⟨storage, pool, space, borrowed, -, -, -, rfl⟩ := activate_eq_ok activated
  obtain ⟨state, n, -, made⟩ := consistent.pool.borrowed borrowed
  let newborn := raise s.behavior a (storage.activate id now s.config.seed)
  obtain ⟨body, rewritten⟩ : (storage.activate id now s.config.seed).Rewritten newborn :=
    raise_rewritten _ _ _
  have own : newborn.id = id := by rw [rewritten]; rfl
  have population : newborn.population = a.population := by
    rw [rewritten, made]
    rfl
  refine ⟨storage, newborn, borrowed, ⟨?_, ?_⟩, own, population, Array.toList_push, ?_⟩
  · rw [made]
    rfl
  · rw [own]
  · rw [Array.toList_push, arrival, own, population]

theorem Consistent.activateAll_housed (consistent : s.Consistent)
    {additions : List (Addition σ μ η)}
    (activated : activateAll now additions s = (.ok (), s')) :
    ∃ newborns, Housed now additions newborns s s' := by
  induction additions generalizing s with
  | nil =>
    cases activated
    exact ⟨[], by simp, by simp, rfl, rfl, .nil⟩
  | cons a rest ih =>
    obtain ⟨id, middle, first, others⟩ := activateAll_cons activated
    obtain ⟨newborns, housed⟩ := ih (consistent.activate first) others
    obtain ⟨storage, newborn, borrowed, raised, -, -, agents, journal⟩ :=
      consistent.activate_housed first
    have keeps := activate_keeps first
    have after : s.pool.after (.borrow a.population) = middle.pool := Pool.after_borrow borrowed
    have lent : s.lent (a :: rest) = storage :: middle.lent rest := by
      simp only [Sim.lent, List.map_cons, Pool.loans, borrowed]
    refine ⟨newborn :: newborns, ?_, ?_, ?_, ?_, ?_⟩
    · rw [housed.agents, agents, List.append_assoc]
      rfl
    · rw [housed.journal, journal, List.append_assoc]
      rfl
    · rw [housed.pool, ← after]
      rfl
    · rw [lent, List.length_cons, List.length_cons, housed.storage]
    · rw [lent]
      refine .cons raised (housed.raised.imp fun x newborn later => ?_)
      rwa [Raises, keeps.behavior, keeps.config] at later

/-- The queues play no part in it. -/
theorem Housed.requeued {additions : List (Addition σ μ η)} {queues : Queues σ μ η}
    (housed : Housed now additions newborns { s with queues } s') :
    Housed now additions newborns s s' :=
  ⟨housed.agents, housed.journal, housed.pool, housed.storage, housed.raised⟩

/-! A whole step. -/

/-- Of the agents as their acts left them, those that a step removes. -/
def removed (q : Queues σ μ η) (acted : List (Agent σ μ)) : List (Agent σ μ) :=
  acted.filter fun a => q.removals.contains a.id

/-- The pool of a step between its removals and its births. -/
def restocked (s : Sim σ μ η) (q : Queues σ μ η) (acted : List (Agent σ μ)) : Pool σ μ :=
  s.pool.afterAll ((removed q acted).map handBack)

/-- What a completed step has written into the journal, and where its newborns live. -/
structure Recorded (commands : Commands σ μ η) (acted newborns : List (Agent σ μ))
    (summary : StepSummary) (s s' : Sim σ μ η) : Prop where
  journal : s'.journal.toList = s.journal.toList ++ [.started s.step] ++
    commands.events.map (.reported s.step) ++
    (removed (s.requests commands) acted).map (parting s.step) ++
    newborns.map (arrival s.step) ++ [.ended summary]
  pool : s'.pool = (s.restocked (s.requests commands) acted).afterAll
    ((s.requests commands).additions.map (.borrow ·.population))
  storage : ((s.restocked (s.requests commands) acted).loans
    ((s.requests commands).additions.map (·.population))).length =
      (s.requests commands).additions.length
  raised : List.Forall₂ (s.Raises s.step) ((s.requests commands).additions.zip
    ((s.restocked (s.requests commands) acted).loans
      ((s.requests commands).additions.map (·.population)))) newborns

/-- What is written up to the births. -/
theorem Consistent.cleared_written (consistent : s.Consistent) (now : Step) :
    (s.cleared now).journal.toList = s.journal.toList ++ s.leaving.map (parting now) ∧
      (s.cleared now).pool = s.pool.afterAll (s.leaving.map handBack) := by
  have mail := deliver_eq consistent.slots
  obtain ⟨journal, pool⟩ := (consistent.deliver now).consistent.removeQueued_written now
  have same : s.deliver.2.leaving = s.leaving.map (·.receive s.queues.deliveries) := by
    rw [leaving, mail]
    show (s.agents.map (·.receive s.queues.deliveries)).toList.filter _ = _
    rw [Array.toList_map, List.filter_map]
    rfl
  have kept : s.deliver.2.journal = s.journal ∧ s.deliver.2.pool = s.pool := by
    rw [mail]
    exact ⟨rfl, rfl⟩
  -- a reader takes its mail with it, but nothing that is written tells of it
  have unread : parting now ∘ (·.receive s.queues.deliveries) = parting (σ := σ) (μ := μ) now := rfl
  have dropped : handBack ∘ (·.receive s.queues.deliveries) = handBack (σ := σ) := rfl
  rw [same, List.map_map, kept.1, unread] at journal
  rw [same, List.map_map, kept.2, dropped] at pool
  exact ⟨journal, pool⟩

/-- What a modification writes. -/
theorem Consistent.modify_written (consistent : s.Consistent) {executed : Nat}
    (modified : s.modify now executed = (.ok summary, s')) :
    ∃ newborns, Housed now s.queues.additions newborns (s.cleared now) s' := by
  have cleared := consistent.cleared now
  have emptied := Modified.requeue cleared.modified.consistent now
    { (s.cleared now).queues with additions := [] }
  have waiting : (s.cleared now).queues.additions = s.queues.additions := by rw [cleared.queues]
  rw [modify_eq, activateQueued, waiting] at modified
  rcases activated : activateAll now s.queues.additions { s.cleared now with
      queues := { (s.cleared now).queues with additions := [] } } with ⟨e | ⟨⟨⟩⟩, last⟩
  · rw [activated] at modified
    cases modified
  · rw [activated] at modified
    cases modified
    obtain ⟨newborns, housed⟩ := emptied.consistent.activateAll_housed activated
    exact ⟨newborns, housed.requeued⟩

/-- A completed step has written what `Recorded` says, of the same newborns. -/
theorem Sound.recorded (sound : s.Sound)
    (rewritten : List.Forall₂ Agent.Rewritten s.agents.toList agents)
    (carried : concluded s.step (((s.acting agents shared).accept s.step commands).modify s.step
      s.agents.size) = (.ok summary, s'))
    (done : Completed (s.requests commands) agents newborns summary s s') :
    Recorded commands agents newborns summary s s' := by
  obtain ⟨last, modified, rfl⟩ := concluded_eq_ok carried
  have accepted := sound.consistent.accept rewritten shared s.step commands
  obtain ⟨newborns', housed⟩ := accepted.consistent.modify_written modified
  have cleared := accepted.consistent.cleared s.step
  obtain ⟨journal, pool⟩ := accepted.consistent.cleared_written s.step
  have going : ((s.acting agents shared).accept s.step commands).leaving =
      (removed (s.requests commands) agents).map Agent.clearInbox := by
    show (agents.toArray.map Agent.clearInbox).toList.filter _ = _
    rw [Array.toList_map, List.filter_map]
    rfl
  rw [going, List.map_map] at journal pool
  -- the newborns are the agents behind the survivors
  obtain rfl : newborns' = newborns := by
    have whole := housed.agents
    have emptied : ((s.acting agents shared).accept s.step commands).agents.toList =
        agents.map Agent.clearInbox := Array.toList_map
    rw [cleared.agents, emptied, List.filter_map, List.map_map] at whole
    exact List.append_cancel_left (whole.symm.trans done.agents)
  have restocked : (((s.acting agents shared).accept s.step commands).cleared s.step).pool =
      s.restocked (s.requests commands) agents := pool
  have lent : (((s.acting agents shared).accept s.step commands).cleared s.step).lent
      (s.requests commands).additions = (s.restocked (s.requests commands) agents).loans
        ((s.requests commands).additions.map (·.population)) := by
    rw [Sim.lent, restocked]
  constructor
  case journal =>
    have reported : ((s.acting agents shared).accept s.step commands).journal.toList =
        s.journal.toList ++ [.started s.step] ++ commands.events.map (.reported s.step) := by
      show (commands.events.foldl _ (s.journal.push (.started s.step))).toList = _
      rw [reported_toList, Array.toList_push]
    show (last.journal.push (.ended summary)).toList = _
    rw [Array.toList_push, housed.journal, journal, reported]
    rfl
  case pool =>
    rw [← restocked]
    exact housed.pool
  case storage =>
    rw [← lent]
    exact housed.storage
  case raised =>
    rw [← lent]
    refine housed.raised.imp fun x newborn raised => ?_
    have keeps := (accepted.trans cleared.modified).keeps
    rwa [Raises, keeps.behavior, keeps.config] at raised

/-! What happens to a simulation. -/

/-- One thing that happens. -/
inductive Advances : Sim σ μ η → Sim σ μ η → Prop where
  | requeued {s : Sim σ μ η} (queues : Queues σ μ η) : Advances s { s with queues }
  | edited {s s' : Sim σ μ η} {id f} : s.edit? id f = some s' → Advances s s'
  | spawned {s s' : Sim σ μ η} {a id} : s.activate a s.step = (.ok id, s') → Advances s s'
  | brokenOff {s : Sim σ μ η} {agents : List (Agent σ μ)} {index : SpatialIndex Float} :
      List.Forall₂ Agent.Rewritten s.agents.toList agents → s.space.Views index →
      Advances s (s.brokenOff agents index)
  | completed {s s' : Sim σ μ η} {commands : Commands σ μ η} {agents newborns : List (Agent σ μ)}
      {summary : StepSummary} : List.Forall₂ Agent.Rewritten s.agents.toList agents →
      Completed (s.requests commands) agents newborns summary s s' →
      Recorded commands agents newborns summary s s' → Advances s s'

theorem Advances.proceeds (advances : s.Advances s') (sound : s.Sound) :
    s.Proceeds s' ∧ s'.Sound := by
  cases advances with
  | requeued queues => exact ⟨.requeue s queues, sound.requeue queues⟩
  | @edited _ id f edited =>
    have after := sound.edit id f
    rwa [edited] at after
  | spawned activated =>
    have modified := sound.consistent.activate_modified activated
    obtain ⟨_, _, _, _, _, _, _, rfl⟩ := activate_eq_ok activated
    exact ⟨⟨modified.keeps, modified.births, .inl ⟨rfl, modified.summaries⟩⟩,
      modified.consistent, sound.idle, sound.board⟩
  | brokenOff rewritten _ => exact sound.brokenOff rewritten _
  | completed _ done _ => exact ⟨done.proceeds, done.sound⟩

/-- A completed step, with what it has written. -/
theorem Sound.finish_recorded (sound : s.Sound) {turns : Outcome σ μ η} (allows : s.Allows turns)
    (completed : s.finish modify turns = (.ok summary, s')) :
    ∃ commands newborns, turns.1 = .ok commands ∧
      Completed (s.requests commands) turns.2.1 newborns summary s s' ∧
      Recorded commands turns.2.1 newborns summary s s' := by
  obtain ⟨commands, newborns, acted, valid, done⟩ := sound.finish_completed allows completed
  obtain ⟨result, agents, shared⟩ := turns
  obtain rfl : result = .ok commands := acted
  rw [finish_of_accepted valid] at completed
  exact ⟨commands, newborns, rfl, done, sound.recorded allows.rewritten completed done⟩

theorem Sound.finish_advances (sound : s.Sound) {turns : Outcome σ μ η} (allows : s.Allows turns) :
    s.Advances (s.finish modify turns).2 := by
  rcases ends : s.finish modify turns with ⟨e | summary, s'⟩
  · obtain rfl := sound.finish_eq_error allows ends
    exact .brokenOff allows.rewritten allows.views
  · obtain ⟨commands, newborns, -, done, recorded⟩ := sound.finish_recorded allows ends
    exact .completed allows.rewritten done recorded

theorem Sound.rests_advances (sound : s.Sound) {c : Call σ μ η} (rests : c.Rests) :
    s.Advances (s.after c) := by
  have still : s.Advances s := .requeued s.queues
  cases c with
  | spawn a =>
    simp only [Sim.after]
    rcases sound.spawn_cases a with ⟨-, ends⟩ | ⟨-, -, ends⟩ | ⟨s', activated, ends⟩
    · rwa [ends]
    · rwa [ends]
    · rw [ends]
      exact .spawned activated
  | enqueueAddition a => exact .requeued _
  | enqueueRemoval id => exact .requeued _
  | enqueueDelivery m => exact .requeued _
  | discardQueued => exact .requeued _
  | edit id f =>
    simp only [Sim.after]
    cases edited : s.edit? id f with
    | none => exact still
    | some s' => exact .edited edited
  | nextStep => exact rests.elim
  | runSteps n => exact rests.elim
  | run => exact rests.elim

namespace Engine
variable {E : Engine σ μ η} (among : E ∈ program)
include among

/-- A completed step of the program, with what it has written. -/
theorem recorded_of_program (sound : s.Sound) (made : E.Makes s (.ok summary, s')) :
    ∃ commands acted shared newborns, E.Turns s (.ok commands, acted, shared) ∧
      List.Forall₂ Agent.Rewritten s.agents.toList acted ∧
      Completed (s.requests commands) acted newborns summary s s' ∧
      Recorded commands acted newborns summary s s' := by
  obtain ⟨⟨result, acted, shared⟩, turned, allows, ends⟩ := makes_of_program among made
  obtain ⟨commands, newborns, succeeds, done, recorded⟩ := sound.finish_recorded allows ends.symm
  obtain rfl : result = .ok commands := succeeds
  exact ⟨commands, acted, shared, newborns, turned, allows.rewritten, done, recorded⟩

theorem advances_of_program (sound : s.Sound) {out : Except SimError StepSummary × Sim σ μ η}
    (made : E.Makes s out) : s.Advances out.2 := by
  obtain ⟨turns, -, allows, rfl⟩ := makes_of_program among made
  exact sound.finish_advances allows

/-- What holds of every new simulation and what every advance preserves holds of all that the program
reaches. -/
theorem Reaches.along {P : Sim σ μ η → Prop}
    (initially : ∀ {setup : Setup σ μ η} {s}, setup.build = .ok s → P s)
    (preserves : ∀ {s s'}, s.Sound → s.Advances s' → P s → P s') (reached : E.Reaches s) : P s := by
  refine reached.invariant initially ?_ ?_
  · intro s c reached rests holds
    have sound := reached.sound among
    exact preserves sound (sound.rests_advances rests) holds
  · intro s result s' reached made holds
    have sound := reached.sound among
    exact preserves sound (advances_of_program among sound made) holds

end Engine

end Vivarium.Sim
