import Vivarium.Proofs.Foraging.Prey
import Vivarium.Proofs.Space.Queries

/-! Every death among the critters is accounted for, once. In whatever order they act, those who are
gone after a step have starved or were caught, nobody is caught twice, each catch is one meal of the
hunter who reports it, and so the kills that a census counts are as many different foragers. -/
namespace Vivarium

/-- What agents have done in any order if all that each does is as `P` says. -/
theorem Sim.Turned.deeds {σ μ η : Type} {s : Sim σ μ η} {P : Deed σ μ η → Prop}
    {result : Except BehaviorError (Commands σ μ η)} {agents : List (Agent σ μ)} {shared : Commons}
    (abides : s.behavior.Abides s.context P) (turned : s.Turned (result, agents, shared)) :
    ∃ deeds : List (Deed σ μ η), deeds.map (·.agent) = s.agents.toList ∧
      deeds.map (·.after) = agents ∧ result = .ok (Deed.requests deeds) ∧
      ∀ d ∈ deeds, P d ∧ shared.board.Holds d.won := by
  obtain ⟨deeds, own, after, requests, held⟩ := abides.ends s.commons_views turned
  rw [chunks_flatten] at own
  exact ⟨deeds, own, after, requests, held⟩

namespace Foraging.Ecology
open Journal

variable {p : Ecology} {shared : Commons}
  {s s' : Sim Critter Alarm Float} {agents : List CritterAgent}
  {result : Except BehaviorError (Commands Critter Alarm Float)} {summary : StepSummary}

/-- What the critters have done in a completed step. -/
theorem turned_deeds (sound : s.Sound) (ecology : s.behavior = p.behavior)
    (turned : s.Turned (result, agents, shared))
    (completed : s.finish Sim.modify (result, agents, shared) = (.ok summary, s')) :
    ∃ (deeds : List (Deed Critter Alarm Float)) (newborns : List CritterAgent),
      deeds.map (·.agent) = s.agents.toList ∧ deeds.map (·.after) = agents ∧
      (∀ d ∈ deeds, p.Lives s.context d ∧ shared.board.Holds d.won) ∧
      Sim.Completed (s.requests (Deed.requests deeds)) agents newborns summary s s' ∧
      Sim.Recorded (Deed.requests deeds) agents newborns summary s s' := by
  have abides : s.behavior.Abides s.context (p.Lives s.context) := by
    rw [ecology]
    exact p.abides s.context
  obtain ⟨deeds, own, after, rfl, lives⟩ := turned.deeds abides
  obtain ⟨_, newborns, ⟨⟩, done, recorded⟩ := sound.finish_recorded turned.allows completed
  exact ⟨deeds, newborns, own, after, lives, done, recorded⟩

/-- Those who are caught in a step were different foragers and are gone after it. -/
theorem step_prey (sound : s.Sound) (ecology : s.behavior = p.behavior)
    (turned : s.Turned (result, agents, shared))
    (completed : s.finish Sim.modify (result, agents, shared) = (.ok summary, s')) :
    ∃ prey : List AgentId, (hunts (Sim.told s s')).map (·.message) = prey.map caught ∧
      prey.Nodup ∧ ∀ id ∈ prey, (forager, id) ∈ s.members ∧ id ∉ s'.ids := by
  obtain ⟨deeds, newborns, own, -, held, done, recorded⟩ :=
    turned_deeds sound ecology turned completed
  have lives : ∀ d ∈ deeds, p.Lives s.context d := fun d among => (held d among).1
  have distinct : (deeds.map (·.agent.id)).Nodup := by
    have nodup := sound.consistent.slots.nodup
    rwa [Sim.ids, ← own, List.map_map] at nodup
  obtain ⟨more, written, said⟩ := recorded.written
  refine ⟨deeds.flatMap prey, ?_, prey_nodup distinct held, ?_⟩
  · rw [Sim.told_eq written, said, hunts_requests lives]
  · intro id eaten
    obtain ⟨d, among, eaten⟩ := List.mem_flatMap.mp eaten
    obtain ⟨e, seen, rfl, population⟩ := (lives d among).seen id eaten
    have stored := sound.consistent.space.neighboursOf_stored seen
    have member : (forager, e.id) ∈ s.members := by
      rw [Sim.members, ← sound.consistent.members, ← population]
      exact List.mem_map_of_mem (Array.mem_toList_iff.mpr stored)
    obtain ⟨a, there, same⟩ := List.mem_map.mp member
    have active : e.id ∈ s.ids := List.mem_map.mpr ⟨a, there, congrArg Prod.snd same⟩
    have wanted : e.id ∈ (Deed.requests deeds).removals := by
      rw [Deed.requests_flatMap]
      exact List.mem_flatMap.mpr ⟨d, among, prey_removed eaten⟩
    refine ⟨member, ?_⟩
    rw [done.survives_iff sound.consistent (Agent.ids_eq turned.allows.rewritten) active,
      Bool.not_eq_false, List.contains_iff_mem]
    exact List.mem_append_right _ wanted

/-- What a step looks like from outside. `agents` are the critters as their acts have left them. -/
structure Accounted (p : Ecology) (s s' : Sim Critter Alarm Float) (agents : List CritterAgent) :
    Prop where
  /-- What becomes of each critter, with its own reports. -/
  fares : List.Forall₂ (fun a a' => p.Fares a a' ((Sim.told s s').filter (·.agent = a.id)))
    s.agents.toList agents
  reporters : ∀ e ∈ Sim.told s s', e.agent ∈ s.ids
  /-- Those who are caught. -/
  prey : ∃ prey : List AgentId, (hunts (Sim.told s s')).map (·.message) = prey.map caught ∧
    prey.Nodup ∧ ∀ id ∈ prey, (forager, id) ∈ s.members ∧ id ∉ s'.ids
  removed : ∀ a ∈ s.agents, a.id ∉ s'.ids ↔
    p.Starves a ∨ ∃ e ∈ hunts (Sim.told s s'), e.message = caught a.id
  /-- A critter that starves does not look at the board and asks for nothing but its removal. -/
  starved : ∀ a ∈ s.agents, p.Starves a → ∀ buffer, s.behavior.turn s.context a buffer =
    .done (.ok (), ⟨{ a.toBody with state := ⟨a.state.kind, p.spent a⟩ },
      buffer ++ ⟨[], [a.id], [], [starvation a]⟩⟩)
  survivors : ∀ a' ∈ agents, a'.id ∈ s'.ids →
    ∃ x ∈ s'.agents, x.id = a'.id ∧ x.state = a'.state
  /-- The newborns are children of critters that have not starved. -/
  offspring : ∃ parents : List CritterAgent, parents.Sublist s.agents.toList ∧
    (∀ a ∈ parents, ¬p.Starves a) ∧
    List.Forall₂ (fun a x => x.population = a.population ∧
        s'.space.projection? x.id = s.space.projection? a.id)
      parents (s'.agents.toList.filter fun x => x.id ∉ s.ids)

theorem accounted (sound : s.Sound) (ecology : s.behavior = p.behavior)
    (calm : s.queues = .empty) (turned : s.Turned (result, agents, shared))
    (completed : s.finish Sim.modify (result, agents, shared) = (.ok summary, s')) :
    p.Accounted s s' agents := by
  obtain ⟨deeds, newborns, own, after, held, done, recorded⟩ :=
    turned_deeds sound ecology turned completed
  have lives : ∀ d ∈ deeds, p.Lives s.context d := fun d among => (held d among).1
  have active : ∀ d ∈ deeds, d.agent ∈ s.agents := by
    intro d among
    rw [← Array.mem_toList_iff, ← own]
    exact List.mem_map_of_mem among
  have ids : deeds.map (·.agent.id) = s.ids := by
    rw [Sim.ids, ← own, List.map_map]
    rfl
  have distinct : (deeds.map (·.agent.id)).Nodup := ids ▸ sound.consistent.slots.nodup
  have there : ∀ d ∈ deeds, s.context.projection? d.agent.id ≠ none := by
    intro d among
    obtain ⟨here, at'⟩ := sound.consistent.projection?_of_mem (Sim.mem_ids (active d among))
    show s.space.projection? d.agent.id ≠ none
    rw [at']
    exact Option.some_ne_none here
  have requests : s.requests (Deed.requests deeds) = ⟨(Deed.requests deeds).additions,
      (Deed.requests deeds).removals, (Deed.requests deeds).deliveries⟩ := by
    rw [Sim.requests, calm]
    rfl
  have order : agents.map (·.id) = s.ids := Agent.ids_eq turned.allows.rewritten
  have told : Sim.told s s' = (Deed.requests deeds).events := by
    obtain ⟨more, written, said⟩ := recorded.written
    rw [Sim.told_eq written, said]
  constructor
  case fares =>
    rw [told, ← own, ← after, List.forall₂_map_left_iff, List.forall₂_map_right_iff,
      List.forall₂_same]
    intro d among
    rw [own_reports distinct lives among]
    exact (lives d among).fares (there d among)
  case reporters =>
    intro e said
    rw [told, Deed.requests_flatMap] at said
    obtain ⟨d, among, own'⟩ := List.mem_flatMap.mp said
    rw [(lives d among).events_own e own']
    exact Sim.mem_ids (active d among)
  case prey => exact step_prey sound ecology turned completed
  case removed =>
    intro a stored
    have starving : (∃ d ∈ deeds, p.Starves d.agent ∧ a.id = d.agent.id) ↔ p.Starves a := by
      constructor
      · rintro ⟨d, among, starves, same⟩
        rwa [sound.consistent.unique stored (active d among) same]
      · intro starves
        rw [← Array.mem_toList_iff, ← own] at stored
        obtain ⟨d, among, rfl⟩ := List.mem_map.mp stored
        exact ⟨d, among, starves, rfl⟩
    rw [done.survives_iff sound.consistent order (Sim.mem_ids stored), requests, Bool.not_eq_false,
      List.contains_iff_mem, removals_iff lives there, starving, told, caught_iff lives]
  case starved =>
    intro a stored starves buffer
    obtain ⟨here, at'⟩ := sound.consistent.projection?_of_mem (Sim.mem_ids stored)
    rw [ecology]
    exact turn_of_starves (c := s.context) at' starves buffer
  case survivors =>
    intro a' among stays
    have active' : a'.id ∈ s.ids := by
      rw [← order]
      exact List.mem_map_of_mem among
    have kept := (done.survives_iff sound.consistent order active').mp stays
    let q := s.requests (Deed.requests deeds)
    refine ⟨{ a' with inbox := Message.copiesFor a'.id q.deliveries }, ?_, rfl, rfl⟩
    rw [← Array.mem_toList_iff, done.agents]
    refine List.mem_append_left _ (List.mem_map.mpr ⟨a', List.mem_filter.mpr ⟨among, ?_⟩, rfl⟩)
    rw [kept]
    rfl
  case offspring =>
    obtain ⟨parents, sublist, fed, children⟩ := parents_exist lives
    refine ⟨parents.map (·.agent), ?_, ?_, ?_⟩
    · rw [← own]
      exact sublist.map _
    · rw [List.forall_mem_map]
      exact fed
    · rw [done.newborns_eq sound.consistent order, List.forall₂_map_left_iff]
      have born := done.born
      rw [requests] at born
      refine forall₂_trans ?_ children born
      rintro d a x ⟨population, there⟩ ⟨born, place⟩
      exact ⟨born.population.trans population, place.trans there.symm⟩

/-! Runs. -/

/-- As many kills are reported as different foragers have died of them. -/
def Tallied (log : List Notice) : Prop :=
  ∃ prey : List AgentId, (hunts (reports log)).map (·.message) = prey.map caught ∧ prey.Nodup ∧
    ∀ id ∈ prey, (forager, id) ∈ deaths log

theorem Tallied.append {log more : List Notice} (tallied : Tallied log)
    (silent : reports more = []) : Tallied (log ++ more) := by
  obtain ⟨prey, messages, nodup, dead⟩ := tallied
  refine ⟨prey, ?_, nodup, fun id among => ?_⟩
  · rw [reports_append, silent, List.append_nil, messages]
  · rw [deaths_append]
    exact List.mem_append_left _ (dead id among)

/-- Those who die now have not died before. -/
theorem Tallied.hunted {log more : List Notice} {living living' : List (Population × AgentId)}
    {next next' : Nat} {prey : List AgentId} (tallied : Tallied log)
    (before : Chronicle log living next) (after : Chronicle (log ++ more) living' next')
    (messages : (hunts (reports more)).map (·.message) = prey.map caught) (nodup : prey.Nodup)
    (gone : ∀ id ∈ prey, (forager, id) ∈ living ∧ (forager, id) ∉ living') :
    Tallied (log ++ more) := by
  obtain ⟨earlier, messages', nodup', dead⟩ := tallied
  refine ⟨earlier ++ prey, ?_, ?_, ?_⟩
  · rw [reports_append, hunts_append, List.map_append, messages', messages, List.map_append]
  · rw [List.nodup_append']
    refine ⟨nodup', nodup, fun id died dies => ?_⟩
    exact (before.mem_living.mp (gone id dies).1).2 (dead id died)
  · rw [List.forall_mem_append]
    constructor
    · intro id died
      rw [deaths_append]
      exact List.mem_append_left _ (dead id died)
    · intro id dies
      obtain ⟨lives, dead'⟩ := gone id dies
      by_contra undead
      refine dead' (after.mem_living.mpr ⟨?_, undead⟩)
      rw [births_append]
      exact List.mem_append_left _ (before.mem_living.mp lives).1

theorem tallied_step (reached : Sim.Engine.workers.Reaches s) (ecology : s.behavior = p.behavior)
    {out : Except SimError StepSummary} (made : Sim.Engine.workers.Makes s (out, s'))
    (tallied : Tallied s.journal.toList) : Tallied s'.journal.toList := by
  have sound := reached.sound Sim.Engine.workers_mem_program
  obtain ⟨before, -⟩ := reached.history Sim.Engine.workers_mem_program
  obtain ⟨after, -⟩ :=
    (reached.after (.nextStep made)).history Sim.Engine.workers_mem_program
  cases out with
  | error e =>
    obtain ⟨agents, index, -, -, rfl⟩ :=
      Sim.Engine.failed_of_program Sim.Engine.workers_mem_program sound made
    have journal : (s.brokenOff agents index).journal.toList =
        s.journal.toList ++ [.started s.step] := Array.toList_push
    rw [journal]
    exact tallied.append rfl
  | ok summary =>
    obtain ⟨⟨result, agents, shared⟩, turned, ends⟩ := made
    obtain ⟨commands, newborns, -, -, recorded⟩ :=
      sound.finish_recorded turned.allows ends.symm
    obtain ⟨prey, messages, nodup, gone⟩ := step_prey sound ecology turned ends.symm
    obtain ⟨more, written, -⟩ := recorded.written
    rw [Sim.told_eq written] at messages
    rw [Sim.Chronicled, written] at after
    rw [written]
    refine tallied.hunted before after messages nodup fun id among => ?_
    obtain ⟨lives, dead⟩ := gone id among
    refine ⟨lives, fun still => dead ?_⟩
    obtain ⟨a, there, same⟩ := List.mem_map.mp still
    exact List.mem_map.mpr ⟨a, there, congrArg Prod.snd same⟩

theorem reached_tallied (reached : Sim.Engine.workers.Reaches s) :
    s.behavior = p.behavior → Tallied s.journal.toList := by
  refine reached.invariant (P := fun s => s.behavior = p.behavior → Tallied s.journal.toList)
    ?_ ?_ ?_
  · intro setup s built ecology
    obtain ⟨-, -, pool, -, -, -, rfl⟩ := Setup.build_parts built
    exact ⟨[], rfl, List.nodup_nil, List.forall_mem_nil _⟩
  · intro s c before rests holds ecology
    have sound := before.sound Sim.Engine.workers_mem_program
    obtain ⟨more, written, silent⟩ := sound.after_written rests
    rw [written]
    exact (holds ((sound.after_keeps c).behavior.symm.trans ecology)).append silent
  · intro s result s' before made holds ecology
    have sound := before.sound Sim.Engine.workers_mem_program
    obtain ⟨proceeds, -⟩ :=
      Sim.Engine.proceeds_of_program Sim.Engine.workers_mem_program sound made
    have same := proceeds.keeps.behavior.symm.trans ecology
    exact tallied_step before same made (holds same)

/-! A hunter and its prey. -/

/-- Critters that see and reach all of a tile and soon get hungry. -/
def frugal : Ecology := ⟨0.0, 0.25, 1.0, 16.0, 1.0, 1.0, 0.0⟩

/-- A world of one tile. -/
def ground : Setup Critter Alarm Float :=
  { Setup.new (.sized 1 1) frugal.behavior with
    prototypes := [(forager, ⟨.forager, 1.0⟩), (hunter, ⟨.hunter, 1.0⟩)] }

/-- A hunter and a forager at one place. -/
theorem ground_encounter : ∃ (s : Sim Critter Alarm Float) (a b : CritterAgent),
    s.Reachable ∧ s.behavior = frugal.behavior ∧ s.queues = .empty ∧ s.agents.toList = [a, b] ∧
    s.config.chunkSize = 1000 ∧ a.id = ⟨0⟩ ∧ a.state = ⟨.hunter, 1.0⟩ ∧ b.id = ⟨1⟩ ∧
    b.state = ⟨.forager, 1.0⟩ ∧ s.context.projection? ⟨0⟩ = some (.placed 0.5 0.5) ∧
    (s.context.space.visibleNeighbours ⟨0⟩ frugal.sight).1 = [⟨⟨1⟩, forager, .placed 0.5 0.5⟩] := by
  obtain ⟨s₀, built, hunters, foragers, hunts, grazes, visible, next, empty, blank, void, ecology,
    chunked⟩ :
      ∃ s : Sim Critter Alarm Float, ground.build = .ok s ∧
        s.pool.pattern? hunter = some (.prototype hunter ⟨.hunter, 1.0⟩) ∧
        s.pool.pattern? forager = some (.prototype forager ⟨.forager, 1.0⟩) ∧
        s.Admits (.plain hunter (.placed 0.5 0.5)) ∧ s.Admits (.plain forager (.placed 0.5 0.5)) ∧
        s.space.terrain.isVisible ⟨0.5, 0.5⟩ ⟨0.5, 0.5⟩ = true ∧ s.nextId = ⟨0⟩ ∧
        s.queues = .empty ∧ s.agents = #[] ∧ s.space.entries = #[] ∧
        s.behavior = frugal.behavior ∧ s.config.chunkSize = 1000 :=
    ⟨_, rfl, rfl, rfl, ⟨rfl, rfl⟩, ⟨rfl, rfl⟩, rfl, rfl, rfl, rfl, rfl, rfl, rfl⟩
  obtain ⟨s₁, a, reached₁, keeps₁, queues₁, next₁, agents₁, first, state, entries₁, -⟩ :=
    (Sim.Reachable.built built).spawn_plain hunters hunts (by rw [next]; decide)
  have second : s₁.nextId = ⟨1⟩ := by
    apply AgentId.ext_index
    rw [next₁, next]
    rfl
  obtain ⟨s₂, b, reached₂, keeps₂, queues₂, -, agents₂, own, state', entries₂, outdated⟩ :=
    reached₁.spawn_plain ((keeps₁.patterns forager).trans foragers)
      (keeps₁.admits_iff.mpr grazes) (by rw [second]; decide)
  have entries : s₂.space.entries.toList =
      [⟨⟨0⟩, hunter, .placed 0.5 0.5⟩, ⟨⟨1⟩, forager, .placed 0.5 0.5⟩] := by
    rw [entries₂, entries₁, void, next, second]
    rfl
  have fresh : s₂.space.Fresh := by
    refine ⟨reached₂.sound.consistent.space, fun current => ?_⟩
    rw [outdated] at current
    cases current
  have stored : ∀ e, e ∈ s₂.space.entries ↔
      e = ⟨⟨0⟩, hunter, .placed 0.5 0.5⟩ ∨ e = ⟨⟨1⟩, forager, .placed 0.5 0.5⟩ := by
    intro e
    rw [← Array.mem_toList_iff, entries, List.mem_cons, List.mem_singleton]
  have terrain : s₂.space.terrain = s₀.space.terrain := keeps₂.terrain.trans keeps₁.terrain
  refine ⟨s₂, a, b, reached₂, (keeps₂.behavior.trans keeps₁.behavior).trans ecology,
    (queues₂.trans queues₁).trans empty, ?_, ?_, first.trans next, state, own.trans second, state',
    ?_, ?_⟩
  · rw [agents₂, agents₁, blank]
    rfl
  · rw [keeps₂.config, keeps₁.config, chunked]
  · exact fresh.wellFormed.projection?_eq_some.mpr ⟨_, (stored _).mpr (.inl rfl), rfl, rfl⟩
  · refine List.perm_singleton.mp ((List.perm_ext_iff_of_nodup (fresh.neighboursOf_nodup _ _ _)
      (List.nodup_singleton _)).mpr fun e => ?_)
    rw [fresh.mem_neighboursOf, List.mem_singleton]
    constructor
    · rintro ⟨me, -, named, seen, -⟩
      rcases (stored e).mp seen.stored with rfl | rfl
      · exact absurd named.symm seen.different
      · rfl
    · rintro rfl
      refine ⟨_, (stored _).mpr (.inl rfl), rfl, ⟨(stored _).mpr (.inr rfl), by decide, ?_, ?_⟩, ?_⟩
      · decide
      · decide
      · show s₂.space.terrain.isVisible _ _ = true
        rw [terrain]
        exact visible

/-- The hunter eats the forager, and neither has a child. -/
theorem ground_hunt : ∃ (s : Sim Critter Alarm Float) (b : CritterAgent)
    (asked : Commands Critter Alarm Float) (acted : List CritterAgent) (shared : Commons),
    s.Reachable ∧ s.behavior = frugal.behavior ∧ s.queues = .empty ∧ b ∈ s.agents ∧
    b.id = ⟨1⟩ ∧ ¬frugal.Starves b ∧
    s.execute = (.ok asked, acted, shared) ∧
    asked.additions = [] ∧ ⟨1⟩ ∈ asked.removals := by
  obtain ⟨s, a, b, reached, ecology, calm, agents, chunked, first, state, second, state', there,
    seen⟩ := ground_encounter
  have spent : frugal.spent a = 0.75 ∧ frugal.spent b = 0.75 := by
    rw [Ecology.spent, state, Ecology.spent, state']
    decide
  have fed : ¬frugal.Starves a ∧ ¬frugal.Starves b := by
    rw [Starves, Starves, spent.1, spent.2]
    decide
  -- The hunter finds nothing on the board.
  obtain ⟨asked, hunter', claimed, hunt, views, alone, eaten⟩ : ∃ asked hunter' claimed,
      s.behavior.perform s.context a .empty s.commons = (.ok asked, hunter', claimed) ∧
      s.space.Views claimed.index ∧
      asked.additions = [] ∧ ⟨1⟩ ∈ asked.removals := by
    have childless : ¬frugal.splitAt ≤ frugal.spent a + frugal.meal := by
      rw [spent.1]
      decide
    have nearest : lowest? (fun e => (Projection.placed 0.5 0.5).position.squaredDistance
        e.projection.position) ((s.context.space.visibleNeighbours a.id frugal.sight).1.filter fun e =>
          e.population == forager) = some ⟨⟨1⟩, forager, .placed 0.5 0.5⟩ := by
      rw [first, seen]
      rfl
    have unclaimed : s.commons.board.contains (caughtKey ⟨1⟩) = false := by
      show s.board.contains _ = false
      rw [reached.sound.board]
      rfl
    rw [← first] at there
    obtain ⟨index, eats⟩ := eats_of_unclaimed there fed.1 (by rw [state]) nearest (by decide)
      s.commons_views unclaimed
    have views := Turn.run_views ((frugal.behavior.act s.context a).run.run ⟨a.toBody, .empty⟩)
      s.commons_views
    rw [ecology]
    refine ⟨_, _, _, eats, ?_, if_neg childless, List.mem_singleton_self _⟩
    exact congrArg (·.2.2.index) eats ▸ views
  obtain ⟨d, final, rfl, lives, grazes⟩ := (frugal.abides s.context).perform b asked views
  have barren : d.asked.additions = [] := by
    have childless : ¬frugal.splitAt ≤ frugal.spent d.agent + frugal.graze := by
      rw [spent.2]
      decide
    have hunts : d.agent.state.kind ≠ .hunter := by
      rw [state']
      decide
    cases lives with
    | astray => rfl
    | starves => rfl
    | grazes _ _ _ _ => exact if_neg childless
    | seeks _ _ hunter _ => exact absurd hunter hunts
    | eats _ _ hunter _ _ _ => exact absurd hunter hunts
  rw [← ecology] at grazes
  have together : chunks s.config.chunkSize.toNat [a, d.agent] = [[a, d.agent]] := by
    rw [chunked]
    rfl
  refine ⟨s, d.agent, asked ++ d.asked, [hunter', d.after], final, reached, ecology, calm, ?_, second,
    fed.2, ?_, ?_, ?_⟩
  · rw [← Array.mem_toList_iff, agents]
    exact List.mem_cons_of_mem _ List.mem_cons_self
  · rw [Sim.execute, agents, together, Behavior.performChunks_singleton]
    simp only [Behavior.performAll, hunt, grazes]
  · show asked.additions ++ d.asked.additions = []
    rw [alone, barren]
    rfl
  · exact List.mem_append_left _ eaten

/-- Every death is accounted for, once. In a step before which nothing was asked from outside, in
whatever order its agents act, those who are gone have starved or are named by the reports of kills;
these name different active foragers; a hunter gains one meal for its own report of a kill and has
no two; and a critter that starves reports this only, without looking at the board or having a
child. Over a whole run, a census has counted as many kills as different foragers have died of them.
-/
theorem deaths_accounted {E : Sim.Engine Critter Alarm Float} (among : E ∈ Sim.Engine.program)
    (reached : E.Reaches s) (ecology : s.behavior = p.behavior) :
    (∀ result agents shared summary s', s.queues = .empty → s.Turned (result, agents, shared) →
      s.finish Sim.modify (result, agents, shared) = (.ok summary, s') → p.Accounted s s' agents) ∧
    ∃ prey : List AgentId, prey.Nodup ∧ (∀ id ∈ prey, (forager, id) ∈ deaths s.journal.toList) ∧
      (hunts (reports s.journal.toList)).map (·.message) = prey.map caught ∧
      (Census.ofJournal s.journal).kills = prey.length := by
  have sound := reached.sound among
  refine ⟨fun _ _ _ _ _ calm turned completed => accounted sound ecology calm turned completed, ?_⟩
  obtain ⟨prey, messages, nodup, dead⟩ := reached_tallied (reached.workers among) ecology
  refine ⟨prey, nodup, dead, messages, ?_⟩
  have counts := congrArg List.length messages
  rw [List.length_map, List.length_map] at counts
  rw [Census.kills_eq, counts]

theorem deaths_accounted_encounter :
    ∃ (s s' : Sim Critter Alarm Float) (summary : StepSummary) (agents : List CritterAgent),
      s.Reachable ∧ s.behavior = frugal.behavior ∧ s.nextStep = (.ok summary, s') ∧
      frugal.Accounted s s' agents ∧ ⟨1⟩ ∈ s.ids ∧ ⟨1⟩ ∉ s'.ids ∧
      ∃ e ∈ hunts (Sim.told s s'), e.message = caught ⟨1⟩ := by
  obtain ⟨s, b, asked, acted, shared, reached, ecology, calm, stored, own, fed, turns, alone,
    eaten⟩ := ground_hunt
  have sound := reached.sound
  have valid : s.validateQueued asked = .ok () := by
    refine Sim.validateQueued_eq_ok.mpr ?_
    rw [calm, alone]
    exact ⟨List.forall_mem_nil _, Nat.zero_le _⟩
  have turned : s.Turned (.ok asked, acted, shared) := turns ▸ s.execute_turned
  obtain ⟨summary, s', ends⟩ := (sound.finish_succeeds turned.allows).mpr ⟨asked, rfl, valid⟩
  have accounts : frugal.Accounted s s' acted :=
    (deaths_accounted Sim.Engine.own_mem_program reached.own ecology).1 _ _ _ _ _ calm turned ends
  obtain ⟨_, newborns, ⟨⟩, -, done⟩ := sound.finish_completed turned.allows ends
  have active := Sim.mem_ids stored
  have gone : b.id ∉ s'.ids := by
    rw [done.survives_iff sound.consistent (Agent.ids_eq turned.allows.rewritten) active,
      Bool.not_eq_false, List.contains_iff_mem, own]
    exact List.mem_append_right _ eaten
  have hunted := ((accounts.removed b stored).mp gone).resolve_left fed
  rw [own] at active gone hunted
  have stepped : s.nextStep = (.ok summary, s') := by rw [Sim.nextStep, turns, ends]
  exact ⟨s, s', summary, acted, reached, ecology, stepped, accounts, active, gone, hunted⟩

end Foraging.Ecology
end Vivarium
