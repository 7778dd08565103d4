import Mathlib.Data.List.Dedup
import Vivarium.Proofs.Sim.Admission
import Vivarium.Proofs.Sim.Independence

/-! Births and deaths. Who is active after a step follows from who was active before and from the
requests; a death that is asked for twice, or for an agent that is not active, makes no difference. -/
namespace Vivarium.Sim
variable {σ μ η : Type} {s s' : Sim σ μ η} {summary : StepSummary} {q : Queues σ μ η}
  {acted newborns : List (Agent σ μ)}

/-- The distinct active ids of a queue of removals, counted from the side of the agents. -/
theorem dedup_removals {ids removals : List AgentId} (nodup : ids.Nodup) :
    (removals.filter (· ∈ ids)).dedup.length = ids.countP removals.contains := by
  have same : (removals.filter (· ∈ ids)).dedup.Perm (ids.filter removals.contains) := by
    rw [List.perm_ext_iff_of_nodup (List.nodup_dedup _) (nodup.filter _)]
    intro id
    simp [and_comm]
  rw [same.length_eq, List.countP_eq_length_filter]

namespace Completed

/-- Those who acted, less those who are gone, and those who were born. -/
theorem active_eq (done : Completed q acted newborns summary s s')
    (order : acted.map (·.id) = s.ids) :
    summary.removed ≤ summary.executed ∧
      summary.active = summary.executed - summary.removed + summary.born := by
  have stay := s.ids.length_eq_countP_add_countP q.removals.contains
  have before : s.ids.length = s.agents.size := by simp [Sim.ids]
  have after : s'.agents.size =
      s.ids.countP (fun id => ¬q.removals.contains id) + q.additions.length := by
    have sizes := congrArg List.length (done.ids_eq order)
    rw [List.length_append, List.length_map, ← done.born.length_eq] at sizes
    simpa [Sim.ids, List.countP_eq_length_filter] using sizes
  obtain ⟨moved, rfl⟩ := done.summary
  dsimp only
  omega

end Completed

/-- Another behaviour that asks for the same but for removals, and other removals that wait: as long as
the same active ids are named, the step ends in the same way. -/
theorem Sound.finish_requeued (sound : s.Sound) {commands : Commands σ μ η} {shared : Commons}
    (rewritten : List.Forall₂ Agent.Rewritten s.agents.toList acted)
    (completed : s.finish modify (.ok commands, acted, shared) = (.ok summary, s'))
    {b : Behavior σ μ η} (inherit : b.inherit = s.behavior.inherit)
    {queued requested : List AgentId}
    (same : ∀ id ∈ s.ids,
      id ∈ queued ++ requested ↔ id ∈ s.queues.removals ++ commands.removals) :
    ((s.requeued queued).driven b).finish modify
      (.ok { commands with removals := requested }, acted, shared) =
        (.ok summary, s'.driven b) := by
  let accepted : Sim σ μ η := (s.acting acted shared).accept s.step commands
  let changed : Sim σ μ η := (s.requeued queued).driven b
  have modified : s.Modified s.step accepted :=
    sound.consistent.accept rewritten shared s.step commands
  have equal : ∀ id ∈ accepted.ids,
      (queued ++ requested).contains id = accepted.queues.removals.contains id := by
    intro id among
    rw [ids_eq_map, accept_identities rewritten, ← ids_eq_map] at among
    rw [Bool.eq_iff_iff, List.contains_iff_mem, List.contains_iff_mem]
    exact same id among
  rcases valid : s.validateQueued commands with e | ⟨⟨⟩⟩
  · rw [finish_of_refused _ valid] at completed
    cases completed
  · have validated : changed.validateQueued { commands with removals := requested } = .ok () := by
      obtain ⟨admitted, left⟩ := validateQueued_eq_ok.mp valid
      exact validateQueued_eq_ok.mpr ⟨admitted, left⟩
    rw [finish_of_accepted valid] at completed
    have ends : changed.finish modify (.ok { commands with removals := requested }, acted, shared) =
        concluded s.step (((accepted.requeued (queued ++ requested)).driven b).modify s.step
          s.agents.size) := finish_of_accepted validated
    obtain ⟨s'', carried, rfl⟩ := concluded_eq_ok completed
    rw [show (s.requeued queued).driven b = changed from rfl, ends,
      modified.consistent.modify_independent inherit equal carried]
    rfl

/-- Births and deaths of a step. The agents before it that nobody asked to remove stay in their order,
and behind them stands a newborn for each request, with the next ids in a row and at the place that was
asked for. A newborn is first as the pattern of its population, then inherits if it has a heritage, and
then is changed as the request says. Nothing else about the requests for removals matters. -/
theorem Engine.Reaches.census_exact {E : Engine σ μ η} (among : E ∈ program)
    (reached : E.Reaches s) (made : E.Makes s (.ok summary, s')) :
    ∃ commands acted shared newborns,
      E.Turns s (.ok commands, acted, shared) ∧
      acted.map Agent.identity = s.identities ∧
      (let removals := s.queues.removals ++ commands.removals
       let additions := s.queues.additions ++ commands.additions
       let deliveries := s.queues.deliveries ++ commands.deliveries
       s'.agents.toList = (acted.filter fun a => !removals.contains a.id).map
          (fun a => { a with inbox := Message.copiesFor a.id deliveries }) ++ newborns ∧
        newborns.map (·.id.index) = List.range' s.nextId.index additions.length ∧
        s'.nextId.index = s.nextId.index + additions.length ∧
        List.Forall₂ (fun a newborn =>
          newborn.population = a.population ∧ newborn.birthStep = s.step ∧
          s'.space.projection? newborn.id = some a.projection ∧
          ∃ pattern n, s.pool.pattern? a.population = some pattern ∧
            let start : Agent σ μ := { pattern with
              id := newborn.id
              birthStep := s.step
              incarnation := n
              rng := .ofAgent s.config.seed newborn.id
              active := true }
            let heir : Agent σ μ := match a.heritage with
              | some heritage => { start with toBody := s.behavior.inherit start heritage }
              | none => start
            newborn = match a.init with
              | some init => { heir with toBody := init heir }
              | none => heir)
          additions newborns ∧
        summary.executed = s.agents.size ∧
        summary.removed = (removals.filter (· ∈ s.ids)).dedup.length ∧
        summary.born = additions.length ∧
        summary.removed ≤ summary.executed ∧
        summary.active = summary.executed - summary.removed + summary.born ∧
        summary.active = s'.agents.size ∧
        s'.queues = .empty ∧
        ∀ (b : Behavior σ μ η) (queued requested : List AgentId),
          b.inherit = s.behavior.inherit →
          (∀ id ∈ s.ids, id ∈ queued ++ requested ↔ id ∈ removals) →
          let t : Sim σ μ η := { s with
            behavior := b
            queues := { s.queues with removals := queued } }
          E.Turns t (.ok { commands with removals := requested }, acted, shared) →
            E.Makes t (.ok summary, { s' with behavior := b })) := by
  have sound := reached.sound among
  obtain ⟨turns, turned, allows, ends⟩ := makes_of_program among made
  obtain ⟨commands, newborns, succeeds, -, done⟩ := sound.finish_completed allows ends.symm
  obtain ⟨result, acted, shared⟩ := turns
  obtain rfl : result = .ok commands := succeeds
  have identities := Agent.identities_eq allows.rewritten
  have order : acted.map (·.id) = s.ids := Agent.ids_eq allows.rewritten
  obtain ⟨fewer, active⟩ := done.active_eq order
  obtain ⟨moved, counts⟩ := done.summary
  refine ⟨commands, acted, shared, newborns, turned, identities, done.agents, done.ids,
    done.nextId, ?_, ?_, ?_, ?_, fewer, active, ?_, done.queues, ?_⟩
  · refine done.born.imp fun a newborn born => ?_
    exact ⟨born.1.population, born.1.birthStep, born.2, born.1.raised⟩
  · rw [counts]
  · rw [counts, dedup_removals sound.consistent.slots.nodup]
    rfl
  · rw [counts]
    rfl
  · rw [counts]
  · intro b queued requested inherit same t others
    refine ⟨_, others, ?_⟩
    rw [modify_of_program among]
    exact (sound.finish_requeued allows.rewritten ends.symm inherit same).symm

/-- Agents of one population that never act, and inherit what is added to their states. -/
def heirs : Setup Nat Unit Nat :=
  { Setup.new (.sized 1 1) ⟨fun _ _ => pure (), fun a gain =>
      { a.toBody with state := a.state + gain }⟩ with prototypes := [("walker", 1)] }

/-- The only agent is removed, whose removal is asked for twice, and another one is born, which
inherits three and is then multiplied by ten. -/
theorem census_exact_heir :
    ∃ (s s' : Sim Nat Unit Nat) (summary : StepSummary), s.Reachable ∧ s.ids = [⟨0⟩] ∧
      s.queues.removals = [⟨0⟩, ⟨7⟩, ⟨0⟩] ∧ s.nextStep = (.ok summary, s') ∧
      summary.executed = 1 ∧ summary.removed = 1 ∧ summary.born = 1 ∧ summary.active = 1 ∧
      s'.ids = [⟨1⟩] ∧ s'.agents.toList.map (·.state) = [(1 + 3) * 10] := by
  let a : Addition Nat Unit Nat := ⟨"walker", .placed 0.5 0.5, some 3,
    some fun newborn => { newborn.toBody with state := newborn.state * 10 }⟩
  obtain ⟨s₀, pattern, built, known, one, admits, next, blank, empty, behavior⟩ :
      ∃ (s₀ : Sim Nat Unit Nat) (pattern : Agent Nat Unit), heirs.build = .ok s₀ ∧
        s₀.pool.pattern? "walker" = some pattern ∧ pattern.state = 1 ∧
        s₀.Admits (.plain "walker" (.placed 0.5 0.5)) ∧ s₀.nextId = ⟨0⟩ ∧
        s₀.agents.toList = [] ∧ s₀.queues = .empty ∧ s₀.behavior = heirs.behavior :=
    ⟨_, _, rfl, rfl, rfl, ⟨rfl, rfl⟩, rfl, rfl, rfl, rfl⟩
  obtain ⟨s₁, walker, reached₁, keeps, queues, later, alone, first, -⟩ :=
    (Reachable.built built).spawn_plain known admits (by rw [next]; decide)
  let s := s₁.afterAll [.enqueueRemoval ⟨0⟩, .enqueueRemoval ⟨7⟩, .enqueueRemoval ⟨0⟩,
    .enqueueAddition a]
  have reached : s.Reachable := reached₁.afterAll _
  have removals : s.queues.removals = [⟨0⟩, ⟨7⟩, ⟨0⟩] := by
    show s₁.queues.removals ++ _ ++ _ ++ _ = _
    rw [queues, empty]
    rfl
  have additions : s.queues.additions = [a] := by
    show s₁.queues.additions ++ _ = _
    rw [queues, empty]
    rfl
  have second : s.nextId = ⟨1⟩ := by
    apply AgentId.ext_index
    rw [show s.nextId.index = s₁.nextId.index from rfl, later, next]
    rfl
  have agents : s.agents.toList = [walker] := by
    show s₁.agents.toList = _
    rw [alone, blank]
    rfl
  rw [next] at first
  have ids : s.ids = [⟨0⟩] := by rw [Sim.ids, agents, List.map_singleton, first]
  have kept : s.behavior = heirs.behavior := keeps.behavior.trans behavior
  have inside : s.Admits a := (keeps.admits_iff (a := a)).mpr ⟨admits.1, admits.2⟩
  obtain ⟨acts, summary, s', completed⟩ := reached.sound.idle_step
    (fun c x => by rw [kept]; rfl)
    (by rw [additions]; exact List.forall_mem_singleton.mpr inside)
    (by rw [additions, second]; decide)
  obtain ⟨commands, acted, shared, newborns, turned, -, survivors, order, -, born, executed,
    removed, births, -, active, -⟩ := reached.own.census_exact Engine.own_mem_program
      (Engine.own_makes.mpr completed.symm)
  cases turned.trans acts
  rw [removals, agents] at survivors
  rw [additions, second] at order
  rw [removals, ids] at removed
  rw [additions] at births born
  have single : summary.executed = 1 := by rw [executed, ← Array.length_toList, agents]; rfl
  refine ⟨s, s', summary, reached, ids, removals, completed, single, removed, births, ?_, ?_⟩
  · rw [active, single, removed, births]
    rfl
  · obtain ⟨newborn, others, ⟨-, -, -, pattern', n, known', raised⟩, rest, rfl⟩ :=
      List.forall₂_cons_left_iff.mp born
    obtain rfl := List.forall₂_nil_left_iff.mp rest
    obtain rfl : pattern = pattern' :=
      Option.some.inj (known.symm.trans ((keeps.patterns "walker").symm.trans known'))
    have left : s'.agents.toList = [newborn] := by
      rw [survivors]
      simp [first, Commands.empty]
    -- for any stream, so that none is worked out
    have gains : ∀ (pattern : Agent Nat Unit) id birthStep incarnation rng,
        (heirs.behavior.inherit { pattern with
          id, birthStep, incarnation, rng, active := true } 3).state = pattern.state + 3 :=
      fun _ _ _ _ _ => rfl
    have state : newborn.state = (1 + 3) * 10 := by
      rw [raised]
      show (s.behavior.inherit _ 3).state * 10 = _
      rw [kept, gains, one]
    rw [Sim.ids, left, List.map_singleton, List.map_singleton, state]
    exact ⟨congrArg (fun id => [id]) (AgentId.ext_index (List.cons.inj order).1), rfl⟩

end Vivarium.Sim
