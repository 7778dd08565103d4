import Vivarium.Proofs.Sim.History

/-! Where the streams of agents start. The seed of an agent's stream is the seed of the run, mixed with the id;
the multiplier that spreads the ids can be undone, so two ids never give one seed. No id is handed out twice,
so no two activations of a run start from one seed, whatever storage they are made on. -/
namespace Vivarium

namespace Stream

/-- The multiplier of the ids, undone. -/
theorem multiplier_inverse : (0x9e3779b97f4a7c15 * 0xf1de83e19937733d : UInt64) = 1 := by decide

theorem agentSeed_injective (seed : UInt64) : Function.Injective (agentSeed seed) := by
  intro a b same
  have products : a.val.toUInt64 * 0x9e3779b97f4a7c15 = b.val.toUInt64 * 0x9e3779b97f4a7c15 :=
    (UInt64.xor_right_inj seed).mp same
  have words := congrArg (· * 0xf1de83e19937733d) products
  simp only [UInt64.mul_assoc, multiplier_inverse, UInt64.mul_one] at words
  cases a
  cases b
  exact congrArg AgentId.mk (UInt32.toUInt64_inj.mp words)

end Stream

namespace Sim
open Journal
variable {σ μ η : Type} {s s' s'' : Sim σ μ η} {a : Addition σ μ η} {id : AgentId} {now : Step}
  {agents others : List (Agent σ μ)} {summary : StepSummary}

/-! Activations. -/

/-- The agent of an activation as soon as it has its id and its stream, before it inherits, is initialized
and is placed. There is none if no storage can be lent or no id is left. -/
def seeded? (s : Sim σ μ η) (a : Addition σ μ η) (now : Step) : Option (Agent σ μ) :=
  match s.pool.borrow a.population with
  | .error _ => none
  | .ok (storage, pool) =>
    match { s with pool }.allocateId with
    | .error _ => none
    | .ok (id, _) => some (storage.activate id now s.config.seed)

/-- The agents of activations in a row, the first one that fails included. -/
def seededAll (now : Step) : List (Addition σ μ η) → Sim σ μ η → List (Agent σ μ)
  | [], _ => []
  | a :: rest, s => (s.seeded? a now).toList ++
    match s.activate a now with
    | (.error _, _) => []
    | (.ok _, s) => seededAll now rest s

/-- The agents that are activated when all that is queued is carried out. -/
def seededInTurn (s : Sim σ μ η) (now : Step) : List (Agent σ μ) :=
  let s := s.cleared now
  seededAll now s.queues.additions { s with queues := { s.queues with additions := [] } }

/-- The agents that a step activates. -/
def seededInStep (s : Sim σ μ η) : List (Agent σ μ) :=
  match s.execute with
  | (.error _, _, _) => []
  | (.ok commands, agents, shared) =>
    let acted := s.acting agents shared
    match acted.validateQueued commands with
    | .error _ => []
    | .ok () => (acted.accept s.step commands).seededInTurn s.step

def seededInSteps (s : Sim σ μ η) : Nat → List (Agent σ μ)
  | 0 => []
  | n + 1 => s.seededInStep ++
    match s.nextStep with
    | (.error _, _) => []
    | (.ok _, s) => s.seededInSteps n

/-- The agents that a call activates, in this order. -/
def seededBy (s : Sim σ μ η) : Call σ μ η → List (Agent σ μ)
  | .spawn a =>
    if s.phase ≠ .idle then []
    else
      match s.validateAddition a with
      | .error _ => []
      | .ok () =>
        match s.ensureIds 1 with
        | .error _ => []
        | .ok () => seededAll s.step [a] s
  | .nextStep => s.seededInStep
  | .runSteps n => s.seededInSteps n
  | .run => s.seededInSteps (s.config.endStep.since s.step).toNat
  | _ => []

/-- The agents that calls in a row activate. -/
def seededByAll (s : Sim σ μ η) : List (Call σ μ η) → List (Agent σ μ)
  | [] => []
  | c :: rest => s.seededBy c ++ (s.after c).seededByAll rest

/-- From one state to another with some activations in between. The journal tells of each, and each gives
the stream of the id in this run. -/
structure Seeds (agents : List (Agent σ μ)) (s s' : Sim σ μ η) : Prop where
  config : s'.config = s.config
  logged : births s'.journal.toList = births s.journal.toList ++ agents.map Agent.member
  streams : ∀ a ∈ agents, a.rng = .ofAgent s.config.seed a.id

namespace Seeds

theorem nobody (config : s'.config = s.config)
    (unborn : births s'.journal.toList = births s.journal.toList) : Seeds [] s s' where
  config := config
  logged := by rw [unborn, List.map_nil, List.append_nil]
  streams := List.forall_mem_nil _

theorem trans (first : Seeds agents s s') (second : Seeds others s' s'') :
    Seeds (agents ++ others) s s'' where
  config := second.config.trans first.config
  logged := by rw [second.logged, first.logged, List.map_append, List.append_assoc]
  streams := by
    rw [List.forall_mem_append]
    exact ⟨first.streams, first.config ▸ second.streams⟩

end Seeds

theorem Consistent.activate_seeds (consistent : s.Consistent)
    (activated : s.activate a now = (.ok id, s')) :
    ∃ x, s.seeded? a now = some x ∧ Seeds [x] s s' ∧
      s'.agents.toList = s.agents.toList ++ [raise s.behavior a x] := by
  obtain ⟨storage, pool, space, borrowed, -, rfl, valid, rfl⟩ := activate_eq_ok activated
  obtain ⟨state, n, -, made⟩ := consistent.pool.borrowed borrowed
  refine ⟨storage.activate s.nextId now s.config.seed, ?_, ⟨rfl, ?_, ?_⟩, Array.toList_push⟩
  · simp only [seeded?, borrowed, allocateId, if_neg valid]
  · rw [Array.toList_push, births_append, made]
    rfl
  · exact List.forall_mem_singleton.mpr rfl

theorem Consistent.activateAll_seeds (consistent : s.Consistent) {additions : List (Addition σ μ η)}
    (activated : activateAll now additions s = (.ok (), s')) :
    Seeds (seededAll now additions s) s s' ∧ s'.agents.toList =
      s.agents.toList ++ List.zipWith (raise s.behavior) additions (seededAll now additions s) := by
  induction additions generalizing s with
  | nil =>
    cases activated
    exact ⟨.nobody rfl rfl, (List.append_nil _).symm⟩
  | cons a rest ih =>
    obtain ⟨id, middle, first, others⟩ := activateAll_cons activated
    obtain ⟨x, given, seeds, agents⟩ := consistent.activate_seeds first
    obtain ⟨more, agents'⟩ := ih (consistent.activate first) others
    have all : seededAll now (a :: rest) s = x :: seededAll now rest middle := by
      simp only [seededAll, given, first, Option.toList_some, List.singleton_append]
    rw [all]
    refine ⟨seeds.trans more, ?_⟩
    rw [agents', agents, (activate_keeps first).behavior, List.zipWith_cons_cons, List.append_assoc]
    rfl

theorem Consistent.modify_seeds (consistent : s.Consistent) {executed : Nat}
    (modified : s.modify now executed = (.ok summary, s')) :
    Seeds (s.seededInTurn now) s s' ∧ s'.agents.toList = (s.cleared now).agents.toList ++
      List.zipWith (raise s.behavior) s.queues.additions (s.seededInTurn now) := by
  have cleared := consistent.cleared now
  have waiting : (s.cleared now).queues.additions = s.queues.additions := by rw [cleared.queues]
  have emptied := Modified.requeue cleared.modified.consistent now
    { (s.cleared now).queues with additions := [] }
  have before : Seeds [] s { s.cleared now with
      queues := { (s.cleared now).queues with additions := [] } } := by
    refine .nobody cleared.modified.keeps.config ?_
    rw [(consistent.cleared_written now).1, births_append, (deaths_partings now _).1, List.append_nil]
  rw [modify_eq, activateQueued] at modified
  rcases activated : activateAll now (s.cleared now).queues.additions { s.cleared now with
      queues := { (s.cleared now).queues with additions := [] } } with ⟨e | ⟨⟨⟩⟩, last⟩
  · rw [activated] at modified
    cases modified
  · rw [activated] at modified
    cases modified
    obtain ⟨seeds, agents⟩ := emptied.consistent.activateAll_seeds activated
    refine ⟨before.trans seeds, ?_⟩
    rw [agents, seededInTurn, waiting, cleared.modified.keeps.behavior]

/-- A step that fails activates nobody. One that is completed activates an agent for each request, and they
are its newborns when they have been raised. -/
theorem Sound.nextStep_seeds (sound : s.Sound) :
    Seeds s.seededInStep s s.nextStep.2 ∧ ∀ summary s', s.nextStep = (.ok summary, s') →
      ∃ commands acted shared, s.execute = (.ok commands, acted, shared) ∧
        s'.agents.toList.filter (fun a => a.id ∉ s.ids) =
          List.zipWith (raise s.behavior) (s.queues.additions ++ commands.additions)
            s.seededInStep := by
  have begun : births (s.journal.push (.started s.step)).toList = births s.journal.toList := by
    rw [Array.toList_push, births_append]
    exact List.append_nil _
  have rewritten := s.execute_turned.allows.rewritten
  have cases := sound.finish_cases s.execute_turned.allows
  rw [Sim.nextStep]
  simp only [seededInStep]
  generalize s.execute = turns at rewritten cases ⊢
  obtain ⟨cause | commands, agents, shared⟩ := turns
  · rcases cases with ⟨_, ⟨⟩, ends⟩ | ⟨_, ⟨⟩, -⟩
    rw [ends]
    exact ⟨.nobody rfl begun, by rintro summary s' ⟨⟩⟩
  · rcases cases with ⟨_, ⟨⟩, -⟩ |
      ⟨_, ⟨⟩, ⟨e, refused, ends⟩ | ⟨valid, summary, s', ends, newborns, done⟩⟩
    · simp only [validateQueued_acting, refused]
      rw [ends]
      exact ⟨.nobody rfl begun, by rintro summary s' ⟨⟩⟩
    simp only [validateQueued_acting, valid]
    have accepted := sound.consistent.accept rewritten shared s.step commands
    have handed : Seeds [] s ((s.acting agents shared).accept s.step commands) := by
      refine .nobody rfl ?_
      show births (commands.events.foldl _ (s.journal.push (.started s.step))).toList = _
      rw [reported_toList, births_append, (reports_aside s.step _).1, List.append_nil, begun]
    have whole := ends
    rw [finish_of_accepted valid] at whole
    obtain ⟨last, modified, rfl⟩ := concluded_eq_ok whole
    obtain ⟨seeds, agents'⟩ := accepted.consistent.modify_seeds modified
    refine ⟨?_, ?_⟩
    · rw [ends]
      have closing : Seeds [] last ({ last.settle with step := s.step.next }.note (.ended summary)) := by
        refine .nobody rfl ?_
        show births (last.journal.push _).toList = _
        rw [Array.toList_push, births_append]
        exact List.append_nil _
      have all := (handed.trans seeds).trans closing
      rwa [List.nil_append, List.append_nil] at all
    · intro summary' s' completed
      cases ends.symm.trans completed
      refine ⟨commands, agents, shared, rfl, ?_⟩
      rw [done.newborns_eq sound.consistent (Agent.ids_eq rewritten)]
      have emptied : ((s.acting agents shared).accept s.step commands).agents.toList =
          agents.map Agent.clearInbox := Array.toList_map
      rw [(accepted.consistent.cleared s.step).agents, emptied, List.filter_map,
        List.map_map] at agents'
      exact (List.append_cancel_left (agents'.symm.trans done.agents)).symm

theorem Sound.runSteps_seeds (sound : s.Sound) (n : Nat) :
    Seeds (s.seededInSteps n) s (s.runSteps n).2 := by
  induction n generalizing s with
  | zero => exact .nobody rfl rfl
  | succ n ih =>
    have first := sound.nextStep_seeds.1
    have next := sound.nextStep.2
    rw [seededInSteps, Sim.runSteps]
    rcases made : s.nextStep with ⟨e | summary, s'⟩
    · rw [made] at first
      rwa [List.append_nil]
    · rw [made] at first next
      exact first.trans (ih next)

theorem Sound.spawn_seeds (sound : s.Sound) (a : Addition σ μ η) :
    Seeds (s.seededBy (.spawn a)) s (s.spawn a).2 ∧ ∀ id s', s.spawn a = (.ok id, s') →
      ∃ x, s.seededBy (.spawn a) = [x] ∧
        s'.agents.toList = s.agents.toList ++ [raise s.behavior a x] := by
  have at_rest : ¬s.phase ≠ .idle := not_not_intro sound.idle
  by_cases admitted : s.Admits a
  · have accepted := validateAddition_eq_ok.mpr admitted
    by_cases used : s.nextId = .invalid
    · have short : s.nextId.remaining < 1 :=
        Nat.not_le.mp (mt AgentId.remaining_pos.mp (not_not_intro used))
      simp only [seededBy, Sim.spawn, if_neg at_rest, accepted,
        ensureIds_eq_error.mpr ⟨short, rfl⟩]
      exact ⟨.nobody rfl rfl, by rintro id s' ⟨⟩⟩
    · obtain ⟨s', activated, ends⟩ := sound.spawn_succeeds admitted used
      obtain ⟨x, given, seeds, agents⟩ := sound.consistent.activate_seeds activated
      have one : s.seededBy (.spawn a) = [x] := by
        simp only [seededBy, if_neg at_rest, accepted,
          ensureIds_eq_ok.mpr (AgentId.remaining_pos.mpr used), seededAll, given, activated,
          Option.toList_some, List.append_nil]
      rw [one, ends]
      refine ⟨seeds, ?_⟩
      rintro id s'' ⟨⟩
      exact ⟨x, rfl, agents⟩
  · simp only [seededBy, Sim.spawn, if_neg at_rest, validateAddition_eq_error.mpr ⟨admitted, rfl⟩]
    exact ⟨.nobody rfl rfl, by rintro id s' ⟨⟩⟩

theorem Sound.call_seeds (sound : s.Sound) (c : Call σ μ η) :
    Seeds (s.seededBy c) s (s.after c) := by
  cases c with
  | spawn a => exact (sound.spawn_seeds a).1
  | edit id f =>
    simp only [Sim.after]
    cases edited : s.edit? id f with
    | none => exact .nobody rfl rfl
    | some s' =>
      obtain ⟨slot, x, -, rfl⟩ := edit?_eq_some edited
      exact .nobody rfl rfl
  | nextStep => exact sound.nextStep_seeds.1
  | runSteps n => exact sound.runSteps_seeds n
  | run => exact sound.runSteps_seeds _
  | _ => exact .nobody rfl rfl

theorem Reachable.calls_seeds (reached : s.Reachable) (calls : List (Call σ μ η)) :
    Seeds (s.seededByAll calls) s (s.afterAll calls) := by
  induction calls generalizing s with
  | nil => exact .nobody rfl rfl
  | cons c rest ih => exact (reached.sound.call_seeds c).trans (ih (reached.after c))

/-- No two activations of a run start a stream from one seed. Two ids never have the same seed under one seed
of the run. What calls of any kind make of a new simulation, its journal tells of every activation, all their
seeds are different, and an agent that has just been activated has the stream of its id, on whatever
storage; what a birth at once and a completed step add to the agents are those agents, raised as the
requests say. -/
theorem streams_distinct :
    (∀ seed, Function.Injective (Stream.agentSeed seed)) ∧
    ∀ (setup : Setup σ μ η) (s₀ : Sim σ μ η), setup.build = .ok s₀ → ∀ calls : List (Call σ μ η),
      let seed := setup.config.seed
      let s := s₀.afterAll calls
      let seeded := s₀.seededByAll calls
      births s.journal.toList = seeded.map (fun a => (a.population, a.id)) ∧
      (seeded.map fun a => Stream.agentSeed seed a.id).Nodup ∧
      (∀ a ∈ seeded, a.rng = Stream.ofSeed (Stream.agentSeed seed a.id)) ∧
      (∀ a id s', s.spawn a = (.ok id, s') → ∃ x, s.seededBy (.spawn a) = [x] ∧
        s'.agents.toList = s.agents.toList ++ [raise s.behavior a x]) ∧
      ∀ summary s', s.nextStep = (.ok summary, s') → ∃ commands acted shared,
        s.execute = (.ok commands, acted, shared) ∧
        s'.agents.toList.filter (fun a => a.id ∉ s.ids) =
          List.zipWith (raise s.behavior) (s.queues.additions ++ commands.additions)
            (s.seededBy .nextStep) := by
  refine ⟨Stream.agentSeed_injective, fun setup s₀ built calls => ?_⟩
  intro seed s seeded
  have first : s₀.Reachable := .built built
  have reached : s.Reachable := first.afterAll calls
  have seeds := first.calls_seeds calls
  obtain ⟨config, blank⟩ : s₀.config = setup.config ∧ births s₀.journal.toList = [] := by
    obtain ⟨-, -, pool, -, -, -, rfl⟩ := Setup.build_parts built
    exact ⟨rfl, rfl⟩
  have logged : births s.journal.toList = seeded.map Agent.member := by
    rw [seeds.logged, blank, List.nil_append]
  refine ⟨logged, ?_, ?_, fun a => (reached.sound.spawn_seeds a).2, reached.sound.nextStep_seeds.2⟩
  · have ids := (reached.own.history Engine.own_mem_program).1.nodup
    rw [logged, List.map_map] at ids
    have distinct := ids.map (Stream.agentSeed_injective seed)
    rwa [List.map_map] at distinct
  · intro a among
    have stream := seeds.streams a among
    rwa [config] at stream

/-- Two walkers, born at one place one after the other. -/
theorem streams_distinct_walkers :
    let a : Addition Unit Unit Unit := .plain "walker" (.placed 0.5 0.5)
    ∃ s s' s'' : Sim Unit Unit Unit, Setup.walkers.build = .ok s ∧ s.spawn a = (.ok ⟨0⟩, s') ∧
      s'.spawn a = (.ok ⟨1⟩, s'') ∧ ∃ x y, s.seededByAll [.spawn a, .spawn a] = [x, y] ∧
        Stream.agentSeed Setup.walkers.config.seed x.id ≠
          Stream.agentSeed Setup.walkers.config.seed y.id := by
  intro a
  obtain ⟨s, built, next, known, inside⟩ : ∃ s : Sim Unit Unit Unit, Setup.walkers.build = .ok s ∧
      s.nextId = ⟨0⟩ ∧ s.pool.contains "walker" = true ∧
      s.space.terrain.contains ⟨0.5, 0.5⟩ = true := ⟨_, rfl, rfl, rfl, rfl⟩
  have admits : s.Admits a := ⟨known, inside⟩
  have reached : s.Reachable := .built built
  obtain ⟨s', activated, spawned⟩ := reached.sound.spawn_succeeds admits (next ▸ by decide)
  have after : s.afterAll [.spawn a] = s' := congrArg Prod.snd spawned
  have second : s'.nextId = ⟨1⟩ := by
    apply AgentId.ext_index
    rw [activate_nextId activated, next]
    rfl
  have again : s'.Admits a := (activate_keeps activated).admits_iff.mpr admits
  obtain ⟨s'', -, spawned'⟩ :=
    (after ▸ reached.afterAll [.spawn a]).sound.spawn_succeeds again (second ▸ by decide)
  rw [next] at spawned
  rw [second] at spawned'
  obtain ⟨-, -, -, first, -⟩ := streams_distinct.2 Setup.walkers s built []
  obtain ⟨-, -, -, other, -⟩ := streams_distinct.2 Setup.walkers s built [.spawn a]
  obtain ⟨-, distinct, -⟩ := streams_distinct.2 Setup.walkers s built [.spawn a, .spawn a]
  obtain ⟨x, one, -⟩ := first a _ s' spawned
  obtain ⟨y, two, -⟩ := other a ⟨1⟩ s'' (after ▸ spawned')
  have both : s.seededByAll [.spawn a, .spawn a] = [x, y] :=
    congrArg₂ (fun now later => now ++ (later ++ [])) one two
  rw [both] at distinct
  refine ⟨s, s', s'', built, spawned, spawned', x, y, both, ?_⟩
  exact List.ne_of_not_mem_cons (List.nodup_cons.mp distinct).1

end Sim
end Vivarium
